import BusRegen.Json.Token
import BusRegen.Json.Writer
import BusRegen.Proofs.Decimal.Layout
/-!
# Written numbers of JSON

The text of a finite scalar is a number with a fraction or an exponent, so it is never taken for an
integer, and its digits are those of the scalar (`scalarChars_of_isFinite`). The nearest scalar to
them is therefore the one that was written (`readsBack_nearest`). The quick way rounds three times,
and whether it comes back to the same scalar depends on the scalar (`readsBack`).

Integers of 64 bits and a sign are read as they are written (`word?_integerChars`).
-/
namespace BusRegen.Json

open Decimal

theorem signed_natAbs (n : Int) :
    (if decide (n < 0) = true then -(n.natAbs : Int) else n.natAbs) = n := by
  by_cases hn : n < 0
  · rw [if_pos (decide_eq_true hn)]
    omega
  · rw [if_neg (by simpa using hn)]
    omega

namespace Number

/-- A number with a fraction or an exponent whose digits are read as a scalar. -/
structure Says (m : Number) (negative : Bool) (x : Float) : Prop where
  negative : m.negative = negative
  plain : m.plain = false
  digits : toFloat ⟨ofDigits (m.whole ++ m.fraction), m.exponent - m.fraction.length⟩ = x

/-- A minus, if there is one, is taken off the digits. -/
theorem ofChars?_signed {n : Bool} {c : Char} {cs : List Char} (hc : isDigit c = true) :
    ofChars? (if n then '-' :: c :: cs else c :: cs) =
      if isWhole ((c :: cs).span isDigit).1 then
        ofRest? n ((c :: cs).span isDigit).1 ((c :: cs).span isDigit).2
      else none := by
  cases n with
  | true => rfl
  | false =>
    have hminus : c ≠ '-' := by
      rintro rfl
      exact absurd hc (by decide)
    unfold ofChars?
    simp [hminus]

theorem ofChars?_pointed {cs : List Char} {x : Float} (h : Pointed cs x) (n : Bool) :
    ∃ m, ofChars? (if n then '-' :: cs else cs) = some m ∧ m.Says n x := by
  obtain ⟨ws, fs, rfl, hwhole, hne, hws, hfs, hx⟩ := h
  obtain ⟨c, ws, rfl⟩ : ∃ c rest, ws = c :: rest := by
    cases ws with
    | nil => cases hwhole
    | cons c rest => exact ⟨c, rest, rfl⟩
  have hspan : (c :: ws ++ '.' :: fs).span isDigit = (c :: ws, '.' :: fs) :=
    span_append hws (by simp; decide)
  have hfraction : fs.span isDigit = (fs, []) := span_eq_self hfs
  refine ⟨⟨n, c :: ws, fs, 0, false⟩, ?_, rfl, rfl, ?_⟩
  · rw [List.cons_append] at hspan ⊢
    rw [ofChars?_signed (hws c (List.mem_cons_self ..)), hspan, if_pos hwhole]
    simp only [ofRest?, hfraction]
    simp [hne]
  · simpa using hx

theorem exponent?_signed (p : Int) :
    exponent? ('e' :: (if p < 0 then '-' else '+') :: digits p.natAbs) = some p := by
  have hall : (digits p.natAbs).all isDigit = true :=
    List.all_eq_true.2 (isDigit_of_mem_digits p.natAbs)
  have hsign : takeSign ((if p < 0 then '-' else '+') :: digits p.natAbs) =
      (decide (p < 0), digits p.natAbs) := by
    by_cases hp : p < 0 <;> simp [hp, takeSign]
  have hne : (digits p.natAbs).isEmpty = false := by
    rw [List.isEmpty_eq_false_iff]
    exact digits_ne_nil _
  unfold exponent?
  simp only [hsign, hall, hne, ofDigits_digits, signed_natAbs]
  rfl

theorem ofChars?_scaled {cs : List Char} {x : Float} (h : Scaled cs x) (n : Bool) :
    ∃ m, ofChars? (if n then '-' :: cs else cs) = some m ∧ m.Says n x := by
  obtain ⟨c, fs, p, rfl, hc, hfs, hx⟩ := h
  refine ⟨⟨n, [c], fs, p, false⟩, ?_, rfl, rfl, hx⟩
  have hwhole : isWhole [c] = true := by
    by_cases h0 : c = '0'
    · rw [h0]
      rfl
    · exact isWhole_cons h0 []
  have he : isDigit 'e' = false := rfl
  have hexponent := exponent?_signed p
  generalize (if p < 0 then '-' else '+') :: digits p.natAbs = es at hexponent ⊢
  have hspan {rest : List Char} (h : ∀ a ∈ rest.head?, isDigit a = false) :
      (c :: rest).span isDigit = ([c], rest) :=
    @span_append isDigit [c] rest (by simpa using hc) h
  rw [ofChars?_signed hc]
  cases fs with
  | nil =>
    rw [List.isEmpty_nil, if_pos rfl, List.nil_append, hspan (by simpa using he)]
    rw [if_pos hwhole]
    exact congrArg (Option.map fun e => Number.mk n [c] [] e false) hexponent
  | cons f fs =>
    have hfraction : (f :: fs ++ 'e' :: es).span isDigit = (f :: fs, 'e' :: es) :=
      span_append hfs (by simpa using he)
    rw [List.isEmpty_cons, if_neg Bool.false_ne_true, hspan (by simp; decide)]
    simp only [hwhole, if_true, ofRest?, List.cons_append] at hfraction ⊢
    simp only [hfraction, List.isEmpty_cons, Bool.false_eq_true, if_false, hexponent,
      Option.map_some]

end Number

/-! ## Scalars -/

/-- A number is no flag and not the missing value. -/
theorem word?_number {p : Precision} {cs : List Char} {m : Number}
    (h : Number.ofChars? cs = some m) : word? p cs = m.value? p := by
  have hflag : Flag.ofChars? cs = none := by
    cases hf : Flag.ofChars? cs with
    | none => rfl
    | some b =>
      rw [Flag.ofChars?_eq_some.1 hf] at h
      cases b <;> cases h
  have hnull : cs ≠ "null".toList := by
    rintro rfl
    cases h
  unfold word?
  rw [hflag]
  simp only [if_neg hnull, h, Option.bind_some]

theorem scalarChars_of_isFinite {x : Float} (hx : x.isFinite = true) :
    ∃ (n : Bool) (y : Float) (m : Number), x = (if n then -y else y) ∧ y.isFinite = true ∧
      Number.ofChars? (scalarChars x) = some m ∧ m.Says n y := by
  have hmark : NumberStyle.scientific.wholeMark = true := rfl
  obtain ⟨n, y, cs, rfl, hy, hchars, hspells⟩ := NumberStyle.chars_of_isFinite hmark hx
  have hread : ∃ m, Number.ofChars? (if n then '-' :: cs else cs) = some m ∧ m.Says n y := by
    rcases hspells with h | ⟨-, h⟩
    · exact Number.ofChars?_pointed h n
    · exact Number.ofChars?_scaled h n
  rw [scalarChars, if_pos hx, hchars]
  obtain ⟨m, hm, hnumber⟩ := hread
  exact ⟨n, y, m, rfl, hy, hm, hnumber⟩

/-- Whether the text of a scalar is read as that scalar. -/
def readsBack (p : Precision) (x : Float) : Bool :=
  match word? p (scalarChars x) with
  | some (.scalar y) => decide (y = x)
  | _ => false

theorem word?_scalarChars {p : Precision} {x : Float} (h : readsBack p x = true) :
    word? p (scalarChars x) = some (.scalar x) := by
  unfold readsBack at h
  split at h
  · next y hy => rw [hy, of_decide_eq_true h]
  · cases h

theorem isWordChar_of_isDigit {c : Char} (h : isDigit c = true) : isWordChar c = true := by
  have halnum : c.isAlphanum = true := by
    simp only [isDigit, Bool.and_eq_true, decide_eq_true_eq] at h
    simp only [Char.isAlphanum, Char.isDigit, Bool.or_eq_true, Bool.and_eq_true, decide_eq_true_eq,
      ge_iff_le, UInt32.le_iff_toNat_le]
    exact .inr h
  rw [isWordChar, halnum, Bool.true_or, Bool.true_or, Bool.true_or]

/-- What the lexer takes for one word. -/
def IsWord (cs : List Char) : Prop := cs ≠ [] ∧ ∀ c ∈ cs, isWordChar c = true

theorem IsWord.cons {c : Char} {cs : List Char} (hc : isWordChar c = true)
    (h : ∀ c ∈ cs, isWordChar c = true) : IsWord (c :: cs) :=
  ⟨List.cons_ne_nil c cs, List.forall_mem_cons.2 ⟨hc, h⟩⟩

theorem IsWord.signed {cs : List Char} (h : IsWord cs) (n : Bool) :
    IsWord (if n then '-' :: cs else cs) := by
  cases n with
  | true => exact .cons (by decide) h.2
  | false => exact h

theorem isWord_digits (n : Nat) : IsWord (digits n) :=
  ⟨digits_ne_nil n, fun c hc => isWordChar_of_isDigit (isDigit_of_mem_digits n c hc)⟩

theorem isWord_pointed {cs : List Char} {x : Float} (h : Pointed cs x) : IsWord cs := by
  obtain ⟨ws, fs, rfl, -, -, hws, hfs, -⟩ := h
  refine ⟨by simp, List.forall_mem_append.2 ⟨fun c hc => isWordChar_of_isDigit (hws c hc), ?_⟩⟩
  exact List.forall_mem_cons.2 ⟨by decide, fun c hc => isWordChar_of_isDigit (hfs c hc)⟩

theorem isWord_scaled {cs : List Char} {x : Float} (h : Scaled cs x) : IsWord cs := by
  obtain ⟨c, fs, p, rfl, hc, hfs, -⟩ := h
  have hfraction : ∀ c ∈ if fs.isEmpty then [] else '.' :: fs, isWordChar c = true := by
    split
    · exact List.forall_mem_nil _
    · exact List.forall_mem_cons.2 ⟨by decide, fun c hc => isWordChar_of_isDigit (hfs c hc)⟩
  have hsign : isWordChar (if p < 0 then '-' else '+') = true := by split <;> decide
  refine .cons (isWordChar_of_isDigit hc) (List.forall_mem_append.2 ⟨hfraction, ?_⟩)
  exact List.forall_mem_cons.2 ⟨by decide, List.forall_mem_cons.2 ⟨hsign, (isWord_digits _).2⟩⟩

theorem isWord_scalarChars (x : Float) : IsWord (scalarChars x) := by
  unfold scalarChars
  split
  · next hx =>
    have hmark : NumberStyle.scientific.wholeMark = true := rfl
    obtain ⟨n, y, cs, -, -, hchars, hspells⟩ := NumberStyle.chars_of_isFinite hmark hx
    rw [hchars]
    rcases hspells with h | ⟨-, h⟩
    · exact (isWord_pointed h).signed n
    · exact (isWord_scaled h).signed n
  · exact ⟨List.cons_ne_nil _ _, List.all_eq_true.1 rfl⟩

/-- A reader that takes all digits into account reads every scalar that is written. -/
theorem readsBack_nearest {x : Float} (hx : x.isFinite = true) : readsBack .nearest x = true := by
  obtain ⟨n, y, m, rfl, hy, hm, hnumber⟩ := scalarChars_of_isFinite hx
  have hvalue : m.value? .nearest = some (.scalar (if n then -y else y)) := by
    unfold Number.value? Number.scalar? Number.nearest?
    simp [hnumber.plain, hnumber.negative, hnumber.digits, hy]
  rw [readsBack, word?_number hm, hvalue]
  exact decide_eq_true rfl

/-! ## Integers -/

theorem isWord_integerChars (n : Int) : IsWord (integerChars n) := by
  unfold integerChars
  split
  · exact (isWord_digits _).signed true
  · exact isWord_digits _

theorem word?_integerChars {p : Precision} {n : Int} (h : n.natAbs < 2 ^ 64) :
    word? p (integerChars n) = some (.integer n) := by
  have hread : Number.ofChars? (integerChars n) =
      some ⟨decide (n < 0), digits n.natAbs, [], 0, true⟩ := by
    have hdigit := isDigit_of_mem_digits n.natAbs
    have hwhole := isWhole_digits n.natAbs
    have hspan : (digits n.natAbs).span isDigit = (digits n.natAbs, []) := span_eq_self hdigit
    have hchars : integerChars n =
        if decide (n < 0) = true then '-' :: digits n.natAbs else digits n.natAbs := by
      unfold integerChars
      simp
    rw [hchars]
    cases hds : digits n.natAbs with
    | nil => exact absurd hds (digits_ne_nil _)
    | cons c rest =>
      rw [hds] at hdigit hwhole hspan
      rw [Number.ofChars?_signed (hdigit c (List.mem_cons_self ..)), hspan, if_pos hwhole]
      rfl
  have hsign : (decide (n < 0) && n.natAbs == 0) = false := by
    by_cases hn : n < 0
    · simp [hn]
      omega
    · simp [hn]
  rw [word?_number hread, Number.value?]
  simp only [ofDigits_digits, h, hsign, signed_natAbs, decide_true, Bool.not_false, Bool.and_self,
    if_true]

end BusRegen.Json
