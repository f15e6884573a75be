import BusRegen.Proofs.Scalar.Bits
/-!
# The order of scalars

The comparisons of scalars go by sign, exponent and mantissa. `Scalar.rank` numbers the scalars in
their order, from minus infinity to infinity, with 0 for both zeros; a comparison of two scalars is
then a comparison of two integers, unless one of them is no number (`lt_iff`, `le_iff`, `beq_iff`).
So what follows from the order alone is decided by `omega`, whatever rounding has done to the
values: the order reverses under negation, and a clamped number lies between its bounds.
-/
namespace BusRegen

/-- A number of ranks above or below zero. -/
def signed (negative : Bool) (n : Int) : Int := if negative then -n else n

@[simp] theorem signed_true (n : Int) : signed true n = -n := rfl

@[simp] theorem signed_false (n : Int) : signed false n = n := rfl

/-- How many scalars lie between zero and a canonical value, with its sign. -/
def Dyadic.rank (d : Dyadic) : Int :=
  signed d.negative ((d.exponent + 1074) * 2 ^ 52 + d.mantissa)

def ScalarKind.rank : ScalarKind → Int
  | .nan => 0
  | .infinite n => signed n (2047 * 2 ^ 52)
  | .finite d => d.rank

namespace Scalar

open Float.Model (UnpackedFloat)
open Float.Model.UnpackedFloat

def rank (x : Float) : Int := (kind x).rank

/-! ## Comparisons as comparisons of ranks -/

/-- Two positive values compare by exponent first, as every full mantissa is below twice every
other one. -/
theorem compare_fields {d d' : Dyadic} (h : d.Canonical) (h' : d'.Canonical) :
    (compare d.exponent d'.exponent).then (compare d.mantissa d'.mantissa) =
      compare ((d.exponent + 1074) * 2 ^ 52 + d.mantissa)
        ((d'.exponent + 1074) * 2 ^ 52 + d'.mantissa) := by
  obtain ⟨hm, he, -, hf⟩ := h
  obtain ⟨hm', he', -, hf'⟩ := h'
  rcases Int.lt_trichotomy d.exponent d'.exponent with hlt | heq | hgt
  · rw [Int.compare_eq_lt.2 hlt, Int.compare_eq_lt.2 (by omega)]; rfl
  · rw [heq, Int.compare_eq_eq.2 rfl]
    change compare d.mantissa d'.mantissa = _
    rcases Nat.lt_trichotomy d.mantissa d'.mantissa with hlt | hmeq | hgt
    · rw [Nat.compare_eq_lt.2 hlt, Int.compare_eq_lt.2 (by omega)]
    · rw [Nat.compare_eq_eq.2 hmeq, Int.compare_eq_eq.2 (by omega)]
    · rw [Nat.compare_eq_gt.2 hgt, Int.compare_eq_gt.2 (by omega)]
  · rw [Int.compare_eq_gt.2 hgt, Int.compare_eq_gt.2 (by omega)]; rfl

/-- The rank of a canonical value, but for its sign: zero for a zero only, and below infinity. -/
theorem fields_bounds {d : Dyadic} (h : d.Canonical) :
    0 ≤ (d.exponent + 1074) * 2 ^ 52 + d.mantissa ∧
      (d.exponent + 1074) * 2 ^ 52 + d.mantissa < 2047 * 2 ^ 52 ∧
      ((d.exponent + 1074) * 2 ^ 52 + d.mantissa = 0 ↔ d.mantissa = 0) := by
  obtain ⟨hm, he, he', hf⟩ := h
  omega

/-- Canonical values of one rank are equal, apart from the two zeros. -/
theorem eq_of_dyadic_rank {d d' : Dyadic} (h : d.Canonical) (h' : d'.Canonical)
    (hr : d.rank = d'.rank) (h0 : d.rank ≠ 0) : d = d' := by
  obtain ⟨n, m, e⟩ := d
  obtain ⟨n', m', e'⟩ := d'
  have hb := fields_bounds h
  have hb' := fields_bounds h'
  have hf := h.full
  have hf' := h'.full
  have hm := h.mantissa_lt
  have hm' := h'.mantissa_lt
  have he := h.exponent_ge
  have he' := h'.exponent_ge
  simp only [Dyadic.rank] at hr h0 hb hb' hf hf' hm hm' he he'
  cases n <;> cases n' <;> simp only [signed_true, signed_false] at hr h0
  all_goals first
    | omega
    | (have hee : e = e' := by omega
       have hmm : m = m' := by omega
       rw [hee, hmm])

/-- A finite form is a zero or has the rank of its fields. -/
theorem form_cases {d : Dyadic} (h : d.Canonical) :
    (ScalarKind.form (.finite d) = .zero (signOf d.negative) ∧ d.rank = 0) ∨
      ∃ hm, ScalarKind.form (.finite d) = .finite (signOf d.negative) d.mantissa d.exponent hm := by
  obtain ⟨-, -, hz⟩ := fields_bounds h
  rcases Nat.eq_zero_or_pos d.mantissa with hm | hm
  · refine .inl ⟨ScalarKind.form_zero hm, ?_⟩
    rw [Dyadic.rank, hz.2 hm]
    cases d.negative <;> rfl
  · exact .inr ⟨hm, ScalarKind.form_finite hm⟩

theorem compare_neg_neg (a b : Int) : compare (-a) (-b) = (compare a b).swap := by
  rcases Int.lt_trichotomy a b with h | rfl | h
  · rw [Int.compare_eq_lt.2 h, Int.compare_eq_gt.2 (by omega)]; rfl
  · rw [Int.compare_eq_eq.2 rfl, Int.compare_eq_eq.2 rfl]; rfl
  · rw [Int.compare_eq_gt.2 h, Int.compare_eq_lt.2 (by omega)]; rfl

theorem compare_infinite_finite {n : Bool} {d : Dyadic} (h : d.Canonical) :
    (ScalarKind.form (.infinite n)).compare (ScalarKind.form (.finite d)) =
      some (compare (signed n (2047 * 2 ^ 52)) d.rank) := by
  have hb := fields_bounds h
  rcases form_cases h with ⟨hf, hr⟩ | ⟨hm, hf⟩
  · rw [hf, hr]
    cases n <;> rfl
  · rw [hf, Dyadic.rank]
    cases n with
    | true => rw [Int.compare_eq_lt.2 (by cases d.negative <;> simp <;> omega)]; rfl
    | false => rw [Int.compare_eq_gt.2 (by cases d.negative <;> simp <;> omega)]; rfl

theorem compare_finite_infinite {n : Bool} {d : Dyadic} (h : d.Canonical) :
    (ScalarKind.form (.finite d)).compare (ScalarKind.form (.infinite n)) =
      some (compare d.rank (signed n (2047 * 2 ^ 52))) := by
  have hb := fields_bounds h
  rcases form_cases h with ⟨hf, hr⟩ | ⟨hm, hf⟩
  · rw [hf, hr]
    cases n <;> rfl
  · rw [hf, Dyadic.rank]
    cases n with
    | true =>
      rw [Int.compare_eq_gt.2 (by cases d.negative <;> simp <;> omega)]
      cases d.negative <;> rfl
    | false =>
      rw [Int.compare_eq_lt.2 (by cases d.negative <;> simp <;> omega)]
      cases d.negative <;> rfl

theorem compare_finite_finite {d d' : Dyadic} (h : d.Canonical) (h' : d'.Canonical) :
    (ScalarKind.form (.finite d)).compare (ScalarKind.form (.finite d')) =
      some (compare d.rank d'.rank) := by
  have hb := fields_bounds h
  have hb' := fields_bounds h'
  have hc := compare_fields h h'
  rcases form_cases h with ⟨hf, hr⟩ | ⟨hm, hf⟩ <;> rcases form_cases h' with ⟨hf', hr'⟩ | ⟨hm', hf'⟩
  · rw [hf, hf', hr, hr']; rfl
  · rw [hf, hf', hr, Dyadic.rank]
    cases d'.negative with
    | true => rw [Int.compare_eq_gt.2 (by simp; omega)]; rfl
    | false => rw [Int.compare_eq_lt.2 (by simp; omega)]; rfl
  · rw [hf, hf', hr', Dyadic.rank]
    cases d.negative with
    | true => rw [Int.compare_eq_lt.2 (by simp; omega)]; rfl
    | false => rw [Int.compare_eq_gt.2 (by simp; omega)]; rfl
  · rw [hf, hf', Dyadic.rank, Dyadic.rank]
    cases d.negative <;> cases d'.negative
    · exact congrArg some hc
    · rw [Int.compare_eq_gt.2 (by simp; omega)]; rfl
    · rw [Int.compare_eq_lt.2 (by simp; omega)]; rfl
    · rw [signed_true, signed_true, compare_neg_neg, ← hc]; rfl

/-- The order of two forms is that of their ranks. -/
theorem compare_form {k l : ScalarKind} (hk : k.Canonical) (hl : l.Canonical) (hkn : k ≠ .nan)
    (hln : l ≠ .nan) : k.form.compare l.form = some (compare k.rank l.rank) := by
  cases k with
  | nan => exact absurd rfl hkn
  | infinite n =>
    cases l with
    | nan => exact absurd rfl hln
    | infinite n' => cases n <;> cases n' <;> rfl
    | finite d' => exact compare_infinite_finite hl
  | finite d =>
    cases l with
    | nan => exact absurd rfl hln
    | infinite n' => exact compare_finite_infinite hk
    | finite d' => exact compare_finite_finite hk hl

theorem compare_nan_right (u : UnpackedFloat) : u.compare .notANumber = none := by
  cases u <;> rfl

theorem isNaN_eq_false_iff (x : Float) : x.isNaN = false ↔ kind x ≠ .nan := by
  rw [← Bool.not_eq_true, isNaN_iff]

theorem compare_eq_some_iff (x y : Float) (o : Ordering) :
    x.toModel.unpack.compare y.toModel.unpack = some o ↔
      x.isNaN = false ∧ y.isNaN = false ∧ compare (rank x) (rank y) = o := by
  rw [unpack_eq, unpack_eq, isNaN_eq_false_iff, isNaN_eq_false_iff]
  by_cases hx : kind x = .nan
  · simp [hx, ScalarKind.form, UnpackedFloat.compare]
  · by_cases hy : kind y = .nan
    · simp [hy, ScalarKind.form, compare_nan_right]
    · rw [compare_form (kind_canonical x) (kind_canonical y) hx hy, Option.some.injEq]
      simp [hx, hy, rank]

theorem lt_iff (x y : Float) : x < y ↔ x.isNaN = false ∧ y.isNaN = false ∧ rank x < rank y := by
  change decide (x.toModel.unpack.lt y.toModel.unpack = true) = true ↔ _
  rw [decide_eq_true_iff, UnpackedFloat.lt, beq_iff_eq, compare_eq_some_iff, Int.compare_eq_lt]

theorem beq_iff (x y : Float) :
    (x == y) = true ↔ x.isNaN = false ∧ y.isNaN = false ∧ rank x = rank y := by
  change x.toModel.unpack.beq y.toModel.unpack = true ↔ _
  rw [UnpackedFloat.beq, beq_iff_eq, compare_eq_some_iff, Int.compare_eq_eq]

theorem le_iff (x y : Float) : x ≤ y ↔ x.isNaN = false ∧ y.isNaN = false ∧ rank x ≤ rank y := by
  change decide (x.toModel.unpack.le y.toModel.unpack = true) = true ↔ _
  rw [decide_eq_true_iff, UnpackedFloat.le, Option.any_eq_true]
  constructor
  · rintro ⟨o, ho, hle⟩
    obtain ⟨hx, hy, rfl⟩ := (compare_eq_some_iff x y o).1 ho
    exact ⟨hx, hy, Int.isLE_compare.1 hle⟩
  · rintro ⟨hx, hy, hle⟩
    exact ⟨_, (compare_eq_some_iff x y _).2 ⟨hx, hy, rfl⟩, Int.isLE_compare.2 hle⟩

theorem not_le_iff {x y : Float} (hx : x.isNaN = false) (hy : y.isNaN = false) :
    ¬ x ≤ y ↔ y < x := by
  simp only [le_iff, lt_iff, hx, hy, true_and, Int.not_le]

theorem not_lt_iff {x y : Float} (hx : x.isNaN = false) (hy : y.isNaN = false) :
    ¬ x < y ↔ y ≤ x := by
  simp only [le_iff, lt_iff, hx, hy, true_and, Int.not_lt]

theorem le_of_lt {x y : Float} (h : x < y) : x ≤ y := by
  rw [lt_iff] at h
  rw [le_iff]
  exact ⟨h.1, h.2.1, Int.le_of_lt h.2.2⟩

theorem lt_of_le_of_lt {x y z : Float} (hxy : x ≤ y) (hyz : y < z) : x < z := by
  rw [le_iff] at hxy
  rw [lt_iff] at hyz ⊢
  exact ⟨hxy.1, hyz.2.1, Int.lt_of_le_of_lt hxy.2.2 hyz.2.2⟩

theorem lt_of_lt_of_le {x y z : Float} (hxy : x < y) (hyz : y ≤ z) : x < z := by
  rw [lt_iff] at hxy ⊢
  rw [le_iff] at hyz
  exact ⟨hxy.1, hyz.2.1, Int.lt_of_lt_of_le hxy.2.2 hyz.2.2⟩

/-! ## Negation, zero and finiteness -/

theorem rank_neg (x : Float) : rank (-x) = -rank x := by
  simp only [rank, kind_neg]
  cases kind x with
  | nan => rfl
  | infinite n => cases n <;> rfl
  | finite d =>
    simp only [ScalarKind.neg, ScalarKind.rank, Dyadic.rank]
    cases d.negative <;> simp

theorem isNaN_neg (x : Float) : (-x).isNaN = x.isNaN := by
  rw [Bool.eq_iff_iff, isNaN_iff, isNaN_iff, kind_neg]
  cases kind x <;> simp [ScalarKind.neg]

theorem neg_lt_neg_iff (x y : Float) : -x < -y ↔ y < x := by
  simp only [lt_iff, isNaN_neg, rank_neg, Int.neg_lt_neg_iff]
  exact and_left_comm

theorem neg_le_neg_iff (x y : Float) : -x ≤ -y ↔ y ≤ x := by
  simp only [le_iff, isNaN_neg, rank_neg, Int.neg_le_neg_iff]
  exact and_left_comm

theorem rank_zero : rank 0 = 0 := by decide

theorem isNaN_zero : (0 : Float).isNaN = false := by decide

theorem neg_nonpos_iff (x : Float) : -x ≤ 0 ↔ 0 ≤ x := by
  simp only [le_iff, isNaN_neg, rank_neg, rank_zero, isNaN_zero, true_and]
  exact and_congr_right fun _ => by omega

/-- The bounds `-x … x` are in order for every number that is not negative. -/
theorem neg_le_self {x : Float} (h : 0 ≤ x) : -x ≤ x := by
  obtain ⟨-, hx, hr⟩ := (le_iff 0 x).1 h
  rw [rank_zero] at hr
  rw [le_iff, isNaN_neg, rank_neg]
  exact ⟨hx, hx, by omega⟩

theorem isNaN_of_isFinite {x : Float} (h : x.isFinite = true) : x.isNaN = false := by
  obtain ⟨d, hd⟩ := (isFinite_iff x).1 h
  rw [isNaN_eq_false_iff, hd]
  exact fun e => by cases e

theorem abs_rank_lt {d : Dyadic} (h : d.Canonical) : |d.rank| < 2047 * 2 ^ 52 := by
  obtain ⟨h0, hlt, -⟩ := fields_bounds h
  rw [abs_lt, Dyadic.rank]
  cases d.negative <;> simp only [signed_true, signed_false] <;> omega

theorem abs_rank_infinite (n : Bool) : |(ScalarKind.infinite n).rank| = 2047 * 2 ^ 52 := by
  cases n <;> rfl

theorem abs_rank_of_isFinite {x : Float} (h : x.isFinite = true) : |rank x| < 2047 * 2 ^ 52 := by
  obtain ⟨d, hd⟩ := (isFinite_iff x).1 h
  have hc := kind_canonical x
  rw [hd] at hc
  rw [rank, hd]
  exact abs_rank_lt hc

/-- What lies between finite scalars is finite. -/
theorem isFinite_of_mem {low high x : Float} (hl : low.isFinite = true) (hh : high.isFinite = true)
    (h : low ≤ x) (h' : x ≤ high) : x.isFinite = true := by
  obtain ⟨-, hnum, hr⟩ := (le_iff low x).1 h
  obtain ⟨-, -, hr'⟩ := (le_iff x high).1 h'
  have hlow := abs_lt.1 (abs_rank_of_isFinite hl)
  have hhigh := abs_lt.1 (abs_rank_of_isFinite hh)
  have hx : |rank x| < 2047 * 2 ^ 52 := abs_lt.2 (by omega)
  rw [isFinite_iff]
  cases hk : kind x with
  | nan => exact absurd hk ((isNaN_eq_false_iff x).1 hnum)
  | finite d => exact ⟨d, rfl⟩
  | infinite n =>
    rw [rank, hk, abs_rank_infinite] at hx
    exact absurd hx (lt_irrefl _)

/-- Scalars of one rank are equal, apart from the two zeros. -/
theorem eq_of_rank_eq {x y : Float} (hx : x.isNaN = false) (hy : y.isNaN = false)
    (h : rank x = rank y) (h0 : rank x ≠ 0) : x = y := by
  have hcx := kind_canonical x
  have hcy := kind_canonical y
  rw [isNaN_eq_false_iff] at hx hy
  unfold rank at h h0
  refine eq_of_kind_eq ?_
  generalize kind x = k at hx hcx h h0
  generalize kind y = l at hy hcy h
  cases k with
  | nan => exact absurd rfl hx
  | infinite n =>
    have hinf := abs_rank_infinite n
    cases l with
    | nan => exact absurd rfl hy
    | infinite n' => cases n <;> cases n' <;> first | rfl | cases h
    | finite d' =>
      rw [h] at hinf
      exact absurd hinf (abs_rank_lt hcy).ne
  | finite d =>
    cases l with
    | nan => exact absurd rfl hy
    | infinite n' =>
      have hinf := abs_rank_infinite n'
      rw [← h] at hinf
      exact absurd hinf (abs_rank_lt hcx).ne
    | finite d' => rw [eq_of_dyadic_rank hcx hcy h h0]

/-! ## Clamping -/

theorem not_lt_of_isNaN {x y : Float} (h : x.isNaN = true ∨ y.isNaN = true) : ¬ x < y := by
  rw [lt_iff]
  rintro ⟨hx, hy, -⟩
  rcases h with h | h
  · exact Bool.noConfusion (hx.symm.trans h)
  · exact Bool.noConfusion (hy.symm.trans h)

theorem clamp_of_isNaN {low high x : Float} (h : x.isNaN = true) : clamp low high x = x := by
  have hlow : ¬ x < low := not_lt_of_isNaN (.inl h)
  have hhigh : ¬ high < x := not_lt_of_isNaN (.inr h)
  simp only [clamp, if_neg hlow, if_neg hhigh]

/-- A clamped number lies between the bounds. -/
theorem clamp_mem {low high x : Float} (h : low ≤ high) (hx : x.isNaN = false) :
    low ≤ clamp low high x ∧ clamp low high x ≤ high := by
  obtain ⟨hl, hh, hr⟩ := (le_iff low high).1 h
  simp only [clamp]
  by_cases hlow : x < low
  · rw [if_pos hlow, if_neg ((not_lt_iff hh hl).2 h)]
    exact ⟨(le_iff low low).2 ⟨hl, hl, Int.le_refl _⟩, h⟩
  · have hge : low ≤ x := (not_lt_iff hx hl).1 hlow
    rw [if_neg hlow]
    by_cases hhigh : high < x
    · rw [if_pos hhigh]
      exact ⟨h, (le_iff high high).2 ⟨hh, hh, Int.le_refl _⟩⟩
    · rw [if_neg hhigh]
      exact ⟨hge, (not_lt_iff hh hx).1 hhigh⟩

/-! ## The larger of two -/

theorem larger_of_le {x y : Float} (hy : y.isNaN = false) (h : x ≤ y) : larger x y = y := by
  have hx : x.isNaN = false := ((le_iff x y).1 h).1
  rw [larger, hy, if_neg Bool.false_ne_true, if_neg ((not_lt_iff hy hx).2 h)]

end Scalar
end BusRegen
