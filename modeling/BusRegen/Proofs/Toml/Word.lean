import BusRegen.Toml.Word
import BusRegen.Proofs.Decimal.Layout
/-!
# Written words of TOML

A scalar in the `marked` style is read as that scalar (`word?_chars`), whichever it is, and the
digits of a number as that integer (`word?_digits`). Before a word is read as a number it must not
be a flag or an integer: the texts of scalars have a point or the letter `n`, which integers have
not.
-/
namespace BusRegen.Toml

open Decimal

/-! ## Digits -/

theorem isGrouped_of_isDigit {c : Char} (h : isDigit c = true) : isGrouped c = true := by
  rw [isGrouped, h, Bool.true_or]

theorem ungroup?_digits {cs : List Char} (h : ∀ c ∈ cs, isDigit c = true) (hne : cs ≠ []) :
    ungroup? isDigit cs = some cs := by
  induction cs with
  | nil => exact absurd rfl hne
  | cons c rest ih =>
    have hc := h c (List.mem_cons_self ..)
    have hrest : ∀ c ∈ rest, isDigit c = true := fun c hc => h c (List.mem_cons_of_mem _ hc)
    unfold ungroup?
    split
    · simp_all
    · simp_all
    · next rest' heq =>
      have := hrest '_' (by simp_all)
      exact absurd this (by decide)
    · simp_all

theorem whole?_digits {cs : List Char} (h : ∀ c ∈ cs, isDigit c = true) (hw : isWhole cs = true) :
    whole? cs = some cs := by
  have hne : cs ≠ [] := by
    rintro rfl
    cases hw
  unfold whole?
  rw [ungroup?_digits h hne]
  simp [hw]

/-! ## Scalars -/

theorem decimal?_pointed {cs : List Char} {x : Float} (h : Pointed cs x) :
    ∃ d, decimal? cs = some d ∧ d.toFloat = x := by
  obtain ⟨ws, fs, rfl, hwhole, hne, hws, hfs, hx⟩ := h
  refine ⟨_, ?_, hx⟩
  have hspan : (ws ++ '.' :: fs).span isGrouped = (ws, '.' :: fs) :=
    span_append (fun c hc => isGrouped_of_isDigit (hws c hc)) (by simp; decide)
  have hfraction : fs.span isGrouped = (fs, []) :=
    span_eq_self fun c hc => isGrouped_of_isDigit (hfs c hc)
  simp only [decimal?, hspan, hfraction, whole?_digits hws hwhole, ungroup?_digits hfs hne,
    exponent?, Option.bind_eq_bind, Option.bind_some, Option.pure_def, zero_sub]

theorem dot_mem_of_pointed {cs : List Char} {x : Float} (h : Pointed cs x) : '.' ∈ cs := by
  obtain ⟨ws, fs, rfl, -⟩ := h
  simp

theorem takeSign_pointed {cs : List Char} {x : Float} (h : Pointed cs x) :
    takeSign cs = (false, cs) := by
  obtain ⟨ws, fs, rfl, hwhole, -, hws, -⟩ := h
  cases ws with
  | nil => cases hwhole
  | cons c ws => exact takeSign_digit (hws c (List.mem_cons_self ..)) _

/-- A number with a point and a sign, or none, is a scalar. -/
theorem scalar?_pointed {cs : List Char} {x : Float} (h : Pointed cs x) (hx : x.isFinite = true)
    (n : Bool) :
    scalar? (if n then '-' :: cs else cs) = some (.scalar (if n then -x else x)) := by
  obtain ⟨d, hd, hread⟩ := decimal?_pointed h
  have hsign : takeSign (if n then '-' :: cs else cs) = (n, cs) := by
    cases n with
    | true => rfl
    | false => exact takeSign_pointed h
  have hdot := dot_mem_of_pointed h
  have hinf : cs ≠ "inf".toList := by
    rintro rfl
    exact absurd hdot (by decide)
  have hnan : cs ≠ "nan".toList := by
    rintro rfl
    exact absurd hdot (by decide)
  unfold scalar?
  simp only [hsign, if_neg hinf, if_neg hnan, hd, Option.map_some, hread, hx, if_true]

/-! ## What is no integer and no date -/

/-- Grouped digits are digits and underscores. -/
theorem ungroup?_eq_none {p : Char → Bool} {c : Char} (hc : p c = false) (h_ : c ≠ '_')
    {cs : List Char} (h : c ∈ cs) : ungroup? p cs = none := by
  fun_induction ungroup? p cs with
  | case1 => cases h
  | case2 | case3 | case5 | case7 => first | rfl | grind
  | case4 d rest hd ih =>
    have hrest : c ∈ rest := by grind
    rw [ih hrest]
    rfl
  | case6 d rest hne hno hd ih =>
    have hrest : c ∈ rest := by grind
    rw [ih hrest]
    rfl

/-- The characters that tell the texts of scalars from integers in any base. -/
def marksScalar (c : Char) : Bool := c == '.' || c == 'n'

theorem integer?_eq_none {c : Char} (hc : marksScalar c = true) {cs : List Char} (h : c ∈ cs) :
    integer? cs = none := by
  have hcase : c = '.' ∨ c = 'n' := by simpa [marksScalar] using hc
  have hbase (base : Nat) {ds : List Char} (hds : c ∈ ds) : ofBase? base ds = none := by
    unfold ofBase?
    rw [ungroup?_eq_none (by rcases hcase with rfl | rfl <;> rfl) (by grind) hds]
    rfl
  unfold integer?
  split
  · rw [hbase 16 (by grind)]; rfl
  · rw [hbase 8 (by grind)]; rfl
  · rw [hbase 2 (by grind)]; rfl
  · have hbody : c ∈ (takeSign cs).2 := by
      unfold takeSign
      split <;> grind
    have hwhole : whole? (takeSign cs).2 = none := by
      unfold whole?
      rw [ungroup?_eq_none (by rcases hcase with rfl | rfl <;> rfl) (by grind) hbody]
      rfl
    simp only [hwhole]
    rfl

/-- A date has a minus inside. -/
theorem isDate_eq_false {cs : List Char} (h : '-' ∉ cs.tail) : isDate cs = false := by
  unfold isDate
  split
  · simp at h
  · rfl

/-! ## Words that are written -/

/-- The characters of scalars but for the sign. -/
def isScalarChar (c : Char) : Bool := isDigit c || ['.', 'i', 'n', 'f', 'a'].contains c

theorem isScalarChar_of_pointed {cs : List Char} {x : Float} (h : Pointed cs x) :
    ∀ c ∈ cs, isScalarChar c = true := by
  obtain ⟨ws, fs, rfl, -, -, hws, hfs, -⟩ := h
  intro c hc
  rcases List.mem_append.1 hc with hc | hc
  · rw [isScalarChar, hws c hc, Bool.true_or]
  · rcases List.mem_cons.1 hc with rfl | hc
    · decide
    · rw [isScalarChar, hfs c hc, Bool.true_or]

/-- The text of a scalar: perhaps a minus, and characters that tell it from an integer. -/
theorem marked_chars (x : Float) : ∃ (n : Bool) (cs : List Char),
    NumberStyle.marked.chars x = (if n then '-' :: cs else cs) ∧
      (∀ c ∈ cs, isScalarChar c = true) ∧ (∃ c ∈ cs, marksScalar c = true) ∧
        scalar? (NumberStyle.marked.chars x) = some (.scalar x) := by
  cases hk : Scalar.kind x with
  | nan =>
    have hx : x = Scalar.nan := Scalar.eq_of_kind_eq (by rw [hk]; decide)
    refine ⟨false, "nan".toList, ?_, List.all_eq_true.1 rfl, ⟨'n', by decide, rfl⟩, ?_⟩
    · rw [NumberStyle.chars, hk]
      rfl
    · rw [NumberStyle.chars, hk, hx]
      rfl
  | infinite n =>
    have hx : x = Scalar.infinity n :=
      Scalar.eq_of_kind_eq (by rw [hk]; cases n <;> decide)
    refine ⟨n, "inf".toList, ?_, List.all_eq_true.1 rfl, ⟨'n', by decide, rfl⟩, ?_⟩
    · rw [NumberStyle.chars, hk]
      cases n <;> rfl
    · rw [NumberStyle.chars, hk, hx]
      cases n with
      | true =>
        have hneg : -Scalar.infinity false = Scalar.infinity true :=
          Scalar.eq_of_kind_eq (by rw [Scalar.kind_neg]; decide)
        rw [← hneg]
        rfl
      | false => rfl
  | finite d =>
    have hf : x.isFinite = true := (Scalar.isFinite_iff x).2 ⟨d, hk⟩
    have hmark : NumberStyle.marked.wholeMark = true := rfl
    obtain ⟨n, y, cs, rfl, hy, hchars, hspells⟩ := NumberStyle.chars_of_isFinite hmark hf
    have hpointed : Pointed cs y := by
      rcases hspells with h | ⟨⟨p, hp⟩, -⟩
      · exact h
      · cases hp
    refine ⟨n, cs, hchars, isScalarChar_of_pointed hpointed, ?_, ?_⟩
    · exact ⟨'.', dot_mem_of_pointed hpointed, rfl⟩
    · rw [hchars]
      exact scalar?_pointed hpointed hy n

theorem word?_chars (x : Float) : word? (NumberStyle.marked.chars x) = some (.scalar x) := by
  obtain ⟨n, cs, hchars, -, ⟨c, hc, hmark⟩, hscalar⟩ := marked_chars x
  have hmem : c ∈ NumberStyle.marked.chars x := by
    rw [hchars]
    split
    · exact List.mem_cons_of_mem _ hc
    · exact hc
  have hflag : Flag.ofChars? (NumberStyle.marked.chars x) = none := by
    cases hf : Flag.ofChars? (NumberStyle.marked.chars x) with
    | none => rfl
    | some b =>
      rw [Flag.ofChars?_eq_some.1 hf] at hmem
      have hnone : (Flag.chars b).all (fun c => !marksScalar c) = true := by cases b <;> rfl
      have := List.all_eq_true.1 hnone c hmem
      simp [hmark] at this
  unfold word?
  rw [hflag, integer?_eq_none hmark hmem, hscalar]

theorem isDate_chars (x : Float) : isDate (NumberStyle.marked.chars x) = false := by
  obtain ⟨n, cs, hchars, hplain, -⟩ := marked_chars x
  refine isDate_eq_false ?_
  have hminus : '-' ∉ cs := fun h => absurd (hplain '-' h) (by decide)
  rw [hchars]
  cases n with
  | true => exact hminus
  | false => exact fun h => hminus (List.mem_of_mem_tail h)

/-! ## Integers and flags -/

theorem takeSign_digits (n : Nat) : takeSign (digits n) = (false, digits n) := by
  have hdigit := isDigit_of_mem_digits n
  cases hds : digits n with
  | nil => exact absurd hds (digits_ne_nil n)
  | cons c rest => exact takeSign_digit (hdigit c (by rw [hds]; exact List.mem_cons_self ..)) rest

theorem integer?_digits (n : Nat) : integer? (digits n) = some (n : Int) := by
  have hdigit := isDigit_of_mem_digits n
  -- The letter of a base is no digit.
  have hletter {c : Char} {ds : List Char} (hc : isDigit c = false) :
      digits n ≠ '0' :: c :: ds := by
    intro heq
    have := hdigit c (by simp [heq])
    rw [hc] at this
    cases this
  unfold integer?
  split
  · next heq => exact absurd heq (hletter rfl)
  · next heq => exact absurd heq (hletter rfl)
  · next heq => exact absurd heq (hletter rfl)
  · simp [takeSign_digits, whole?_digits hdigit (isWhole_digits n), ofDigits_digits]

theorem word?_digits {n : Nat} (h : n < 2 ^ 128) : word? (digits n) = some (.integer n) := by
  have hflag : Flag.ofChars? (digits n) = none := by
    cases hf : Flag.ofChars? (digits n) with
    | none => rfl
    | some b =>
      have hdigit := isDigit_of_mem_digits n
      rw [Flag.ofChars?_eq_some.1 hf] at hdigit
      have hfirst := hdigit (Flag.chars b)[0]! (by cases b <;> decide)
      cases b <;> exact absurd hfirst (by decide)
  have hfits : fitsWord n = true := by
    rw [fitsWord, Bool.and_eq_true, decide_eq_true_eq, decide_eq_true_eq]
    exact ⟨by omega, by exact_mod_cast h⟩
  unfold word?
  rw [hflag, integer?_digits]
  simp only [hfits, if_true]

theorem isDate_digits (n : Nat) : isDate (digits n) = false :=
  isDate_eq_false fun h => absurd (isDigit_of_mem_digits n '-' (List.mem_of_mem_tail h)) (by decide)

theorem word?_flag (b : Bool) : word? (Flag.chars b) = some (.flag b) := by
  unfold word?
  rw [Flag.ofChars?_eq_some.2 rfl]

end BusRegen.Toml
