import BusRegen.Decimal.Style
import BusRegen.Proofs.Decimal.ReadBack
/-!
# What the digits of a written scalar say

A style moves the point of a shortest decimal, adds zeros, or splits off an exponent. None of this
changes the scalar that the digits are read as: with the point (`pointed_positionalChars`) they are
those of the same number with zeros at the end, and before an exponent (`scaled_scientificChars`)
they are those of the decimal itself. `Pointed` and `Scaled` are all that a reader of numbers has to
know of a style.
-/
namespace BusRegen

/-- Where every element is read, so is the list. -/
theorem mapM_map_of_some {α β γ : Type} {g : α → β} {f : β → Option γ} {h : α → γ} {l : List α}
    (hread : ∀ a ∈ l, f (g a) = some (h a)) : (l.map g).mapM f = some (l.map h) := by
  induction l with
  | nil => rfl
  | cons a l ih =>
    rw [List.map_cons, List.mapM_cons, hread a (List.mem_cons_self ..),
      ih fun b hb => hread b (List.mem_cons_of_mem _ hb)]
    rfl

namespace Decimal

/-! ## Digits -/

theorem digitChar_ne_zero {d : Nat} (h : d < 10) (h0 : 0 < d) : Nat.digitChar d ≠ '0' := by
  intro hc
  have hn := toNat_digitChar d h
  rw [hc] at hn
  change 48 = 48 + d at hn
  omega

/-- A positive number is not written with a zero in front. -/
theorem exists_digits_cons {n : Nat} (h : 0 < n) : ∃ c rest, digits n = c :: rest ∧ c ≠ '0' := by
  fun_induction digits n with
  | case1 n hn => exact ⟨_, [], rfl, digitChar_ne_zero hn h⟩
  | case2 n hn ih =>
    obtain ⟨c, rest, heq, hc⟩ := ih (by omega)
    exact ⟨c, rest ++ [Nat.digitChar (n % 10)], by rw [heq, List.cons_append], hc⟩

theorem isWhole_cons {c : Char} (h : c ≠ '0') (rest : List Char) : isWhole (c :: rest) = true := by
  unfold isWhole
  split <;> simp_all

theorem isWhole_digits (n : Nat) : isWhole (digits n) = true := by
  rcases Nat.eq_zero_or_pos n with rfl | h
  · rw [digits]
    rfl
  · obtain ⟨c, rest, heq, hc⟩ := exists_digits_cons h
    rw [heq]
    exact isWhole_cons hc rest

theorem ofDigitsAfter_eq (acc : Nat) (cs : List Char) :
    ofDigitsAfter acc cs = acc * 10 ^ cs.length + ofDigits cs := by
  induction cs generalizing acc with
  | nil =>
    change acc = acc * 10 ^ 0 + 0
    rw [pow_zero, Nat.mul_one, Nat.add_zero]
  | cons c cs ih =>
    change ofDigitsAfter (acc * 10 + digitValue c) cs =
      acc * 10 ^ (cs.length + 1) + ofDigitsAfter (0 * 10 + digitValue c) cs
    rw [ih, ih (0 * 10 + digitValue c), pow_succ]
    ring

theorem ofDigits_append (xs ys : List Char) :
    ofDigits (xs ++ ys) = ofDigits xs * 10 ^ ys.length + ofDigits ys := by
  rw [ofDigits, ofDigitsAfter_append, ofDigitsAfter_eq, ← ofDigits]

theorem ofDigits_append_zeros (cs : List Char) (k : Nat) :
    ofDigits (cs ++ List.replicate k '0') = ofDigits cs * 10 ^ k := by
  have hzeros : ofDigits (List.replicate k '0') = 0 := by
    rw [← List.append_nil (List.replicate k '0'), ofDigitsAfter_zeros]
    rfl
  rw [ofDigits_append, hzeros, List.length_replicate, Nat.add_zero]

/-- Zeros at the end are made up for by the exponent. -/
theorem toFloat_append_zeros (cs : List Char) (k : Nat) (e : Int) :
    toFloat ⟨ofDigits (cs ++ List.replicate k '0'), e⟩ = toFloat ⟨ofDigits cs, e + k⟩ := by
  rw [ofDigits_append_zeros, toFloat_shift]

/-- There is no sign in front of digits. -/
theorem takeSign_digit {c : Char} (h : isDigit c = true) (rest : List Char) :
    takeSign (c :: rest) = (false, c :: rest) := by
  unfold takeSign
  split
  · next heq =>
    obtain ⟨rfl, -⟩ := List.cons.inj heq
    exact absurd h (by decide)
  · next heq =>
    obtain ⟨rfl, -⟩ := List.cons.inj heq
    exact absurd h (by decide)
  · rfl

/-- A reader takes the characters in front that are like the first ones. -/
theorem span_append {p : Char → Bool} {cs rest : List Char} (h : ∀ c ∈ cs, p c = true)
    (hr : ∀ c ∈ rest.head?, p c = false) : (cs ++ rest).span p = (cs, rest) := by
  rw [List.span_eq_takeWhile_dropWhile, List.takeWhile_append_of_pos h,
    List.dropWhile_append_of_pos h]
  cases rest with
  | nil => rw [List.takeWhile_nil, List.dropWhile_nil, List.append_nil]
  | cons c rest =>
    have hc := hr c rfl
    rw [List.takeWhile_cons_of_neg (by simp [hc]), List.dropWhile_cons_of_neg (by simp [hc]),
      List.append_nil]

theorem span_eq_self {p : Char → Bool} {cs : List Char} (h : ∀ c ∈ cs, p c = true) :
    cs.span p = (cs, []) := by
  have happend : (cs ++ []).span p = (cs, []) := span_append h (by simp)
  rwa [List.append_nil] at happend

/-! ## With a point or an exponent -/

/-- Digits with a point between two of them that are read as a scalar. -/
def Pointed (cs : List Char) (x : Float) : Prop :=
  ∃ ws fs, cs = ws ++ '.' :: fs ∧ isWhole ws = true ∧ fs ≠ [] ∧
    (∀ c ∈ ws, isDigit c = true) ∧ (∀ c ∈ fs, isDigit c = true) ∧
    toFloat ⟨ofDigits (ws ++ fs), -fs.length⟩ = x

/-- Digits, perhaps with a point after the first one, and an exponent that are read as a scalar. -/
def Scaled (cs : List Char) (x : Float) : Prop :=
  ∃ c fs p, cs = c :: ((if fs.isEmpty then [] else '.' :: fs) ++
      'e' :: (if p < 0 then '-' else '+') :: digits p.natAbs) ∧
    isDigit c = true ∧ (∀ c ∈ fs, isDigit c = true) ∧
    toFloat ⟨ofDigits (c :: fs), p - fs.length⟩ = x

theorem isDigit_zero : isDigit '0' = true := rfl

theorem isDigit_of_mem_zeros {c : Char} {k : Nat} (h : c ∈ List.replicate k '0') :
    isDigit c = true := by
  rw [List.eq_of_mem_replicate h, isDigit_zero]

theorem pointed_zero : Pointed ['0', '.', '0'] (Scalar.zero false) :=
  ⟨['0'], ['0'], rfl, rfl, List.cons_ne_nil _ _, by simp [isDigit_zero], by simp [isDigit_zero],
    toFloat_zero _⟩

section
variable {ds : List Char} {k : Nat} (hdigit : ∀ c ∈ ds, isDigit c = true)
include hdigit

/-- All digits are after the point. -/
theorem pointed_after (hne : ds ≠ []) (k : Nat) :
    Pointed ('0' :: '.' :: (List.replicate k '0' ++ ds))
      (toFloat ⟨ofDigits ds, -(k + ds.length : Int)⟩) := by
  have hzeros : ofDigits (['0'] ++ (List.replicate k '0' ++ ds)) = ofDigits ds := by
    rw [← List.append_assoc]
    exact ofDigitsAfter_zeros (k + 1) ds
  refine ⟨['0'], _, rfl, rfl, List.append_ne_nil_of_right_ne_nil _ hne, by simp [isDigit_zero],
    List.forall_mem_append.2 ⟨fun c => isDigit_of_mem_zeros, hdigit⟩, ?_⟩
  rw [hzeros, List.length_append, List.length_replicate, Nat.cast_add]

/-- The point is between two digits. -/
theorem pointed_between (hwhole : isWhole (ds.take k) = true) (hk : k < ds.length) :
    Pointed (ds.take k ++ '.' :: ds.drop k) (toFloat ⟨ofDigits ds, k - ds.length⟩) := by
  refine ⟨_, _, rfl, hwhole, List.ne_nil_of_length_pos (by rw [List.length_drop]; omega),
    fun c hc => hdigit c (List.mem_of_mem_take hc),
    fun c hc => hdigit c (List.mem_of_mem_drop hc), ?_⟩
  rw [List.take_append_drop, List.length_drop]
  congr 2
  omega

/-- There are zeros before the point and one after it. -/
theorem pointed_before (hwhole : isWhole (ds ++ List.replicate k '0') = true) :
    Pointed (ds ++ List.replicate k '0' ++ ['.', '0']) (toFloat ⟨ofDigits ds, k⟩) := by
  refine ⟨_, ['0'], rfl, hwhole, List.cons_ne_nil _ _,
    List.forall_mem_append.2 ⟨hdigit, fun c => isDigit_of_mem_zeros⟩, by simp [isDigit_zero], ?_⟩
  rw [List.append_assoc, ← List.replicate_succ', toFloat_append_zeros]
  congr 2
  simp

end

end Decimal

namespace NumberStyle

open Decimal

theorem pointed_positionalChars {style : NumberStyle} (mark : style.wholeMark = true) {d : Decimal}
    (h : 0 < d.coefficient) :
    Pointed (style.positionalChars (digits d.coefficient)
      ((digits d.coefficient).length + d.exponent)) d.toFloat := by
  obtain ⟨coefficient, e⟩ := d
  have hdigit := isDigit_of_mem_digits coefficient
  have hcoefficient := ofDigits_digits coefficient
  obtain ⟨c, rest, hds, hc⟩ := exists_digits_cons h
  simp only
  generalize digits coefficient = ds at hdigit hcoefficient hds
  subst hcoefficient
  have hwhole {k : Nat} (hk : 0 < k) (zs : List Char) : isWhole (ds.take k ++ zs) = true := by
    obtain ⟨k, rfl⟩ := Nat.exists_eq_succ_of_ne_zero hk.ne'
    rw [hds]
    exact isWhole_cons hc _
  unfold positionalChars
  split
  · next hle =>
    obtain ⟨k, hk⟩ := Int.eq_ofNat_of_zero_le (by omega : 0 ≤ -(ds.length + e))
    have he : e = -(k + ds.length : Int) := by omega
    rw [hk, Int.toNat_natCast, he]
    exact pointed_after hdigit (hds ▸ List.cons_ne_nil c rest) k
  · next hle =>
    obtain ⟨k, hk⟩ := Int.eq_ofNat_of_zero_le (by omega : 0 ≤ ds.length + e)
    have he : e = k - ds.length := by omega
    rw [hk, Int.toNat_natCast, he]
    dsimp only
    by_cases hshort : k < ds.length
    · have hnone : k - ds.length = 0 := by omega
      have hwhole' : isWhole (ds.take k) = true := by
        have := hwhole (by omega : 0 < k) []
        rwa [List.append_nil] at this
      have hdrop : ds.drop k ≠ [] := List.ne_nil_of_length_pos (by rw [List.length_drop]; omega)
      simpa [hnone, hdrop] using pointed_between hdigit hwhole' hshort
    · obtain ⟨j, rfl⟩ := Nat.exists_eq_add_of_le (Nat.le_of_not_lt hshort)
      have hwhole' := hwhole (by omega : 0 < ds.length + j) (List.replicate j '0')
      have hall : ds.take (ds.length + j) = ds := List.take_of_length_le (by omega)
      rw [hall] at hwhole'
      simpa [hall, mark] using pointed_before hdigit hwhole'

theorem scaled_scientificChars {d : Decimal} (h : 0 < d.coefficient) :
    Scaled (scientificChars (digits d.coefficient)
      ((digits d.coefficient).length + d.exponent - 1)) d.toFloat := by
  have hdigit := isDigit_of_mem_digits d.coefficient
  have hcoefficient := ofDigits_digits d.coefficient
  obtain ⟨c, rest, hds, -⟩ := exists_digits_cons h
  rw [hds] at hdigit hcoefficient ⊢
  refine ⟨c, rest, (c :: rest).length + d.exponent - 1, ?_, hdigit c (List.mem_cons_self ..),
    fun c hc => hdigit c (List.mem_cons_of_mem _ hc), ?_⟩
  · unfold scientificChars
    cases rest <;> rfl
  · rw [hcoefficient, List.length_cons]
    congr 2
    push_cast
    omega

/-! ## Written scalars -/

/-- Without its sign a scalar is written with a point, unless the style has exponents. -/
def Spells (style : NumberStyle) (cs : List Char) (x : Float) : Prop :=
  Pointed cs x ∨ (∃ p, style.positional p = false) ∧ Scaled cs x

theorem spells_layout {style : NumberStyle} (mark : style.wholeMark = true) {d : Decimal}
    (h : 0 < d.coefficient) : style.Spells (style.layout d) d.toFloat := by
  unfold layout
  simp only
  split
  · left
    rw [Int.sub_add_cancel]
    exact pointed_positionalChars mark h
  · next hp => exact .inr ⟨⟨_, Bool.eq_false_of_not_eq_true hp⟩, scaled_scientificChars h⟩

/-- A finite scalar is written with its sign and a text of its absolute value. -/
theorem chars_of_isFinite {style : NumberStyle} (mark : style.wholeMark = true) {x : Float}
    (hx : x.isFinite = true) : ∃ (n : Bool) (y : Float) (cs : List Char),
      x = (if n then -y else y) ∧ y.isFinite = true ∧
      style.chars x = (if n then '-' :: cs else cs) ∧ style.Spells cs y := by
  obtain ⟨d, hd⟩ := (Scalar.isFinite_iff x).1 hx
  have hspells : style.Spells
      (if d.mantissa = 0 then if style.wholeMark then ['0', '.', '0'] else ['0']
        else style.layout (Decimal.shortest style.tie d x.abs)) x.abs := by
    rcases Nat.eq_zero_or_pos d.mantissa with h0 | hpos
    · have he : d.exponent = -1074 := by
        have := (Scalar.canonical_of_kind hd).full
        omega
      have habs : x.abs = Scalar.zero false := by
        refine Scalar.eq_of_kind_eq ?_
        rw [Scalar.kind_abs hd, Scalar.kind_zero, h0, he]
      rw [if_pos h0, if_pos mark, habs]
      exact .inl pointed_zero
    · rw [if_neg hpos.ne']
      have hlayout := spells_layout mark (shortest_coefficient_pos hd hpos style.tie)
      rwa [toFloat_shortest hd hpos] at hlayout
  refine ⟨d.negative, x.abs, _, Scalar.eq_signed_abs hd, Scalar.isFinite_abs hx, ?_, hspells⟩
  rw [chars, hd]

end NumberStyle
end BusRegen
