import BusRegen.Proofs.Scalar.Nearest
/-!
# Rounding keeps the order

A scalar that is the rounded result of an operation is not above another if the exact results are
not. `place` numbers the magnitudes as `Scalar.rank` numbers the scalars that they are rounded to,
but without an end; it grows with the magnitude (`place_mono`), as within one unit the rounded
number of units does, and beyond the unit begins the next. `landing` is the rank of the scalar that
a number of either sign is rounded to.

So finite scalars are in the order of their values (`le_iff_value`), and the sum of two has the rank
`landing` of the exact sum and is a number (`rank_add`). What follows for the order is said without
rounding: adding what is not negative does not lead down (`le_add_of_nonneg`), subtracting it does
not lead up (`sub_le_of_nonneg`), and a product does not pass a scalar that the exact product does
not pass (`HasValue.mul_le`).
-/
namespace BusRegen

open Float.Model (UnpackedFloat)
open Float.Model.UnpackedFloat

theorem nearestEven_mono {x y : ℚ} (h : x ≤ y) : nearestEven x ≤ nearestEven y := by
  rcases Nat.lt_or_eq_of_le (Nat.floor_mono h) with hlt | heq
  · exact (nearestEven_le x).trans (hlt.trans_le (floor_le_nearestEven y))
  · unfold nearestEven
    rw [heq]
    split_ifs <;> first | omega | linarith

theorem unitExponent_mono {x y : ℚ} (hx : 0 < x) (h : x ≤ y) : unitExponent x ≤ unitExponent y := by
  have hlog : Int.log 2 x ≤ Int.log 2 y := Int.log_mono_right hx h
  unfold unitExponent
  omega

/-- The number of the scalar that a positive magnitude is rounded to, if there were no greatest. -/
def place (x : ℚ) : Int :=
  (unitExponent x + 1074) * 2 ^ 52 + nearestEven (x / 2 ^ unitExponent x)

/-- A unit has no more numbers than there are up to the beginning of the next. -/
theorem place_mono {x y : ℚ} (hx : 0 < x) (h : x ≤ y) : place x ≤ place y := by
  have hmin := unitExponent_ge x
  have hend := nearestEven_unit_le x
  rcases Int.lt_or_eq_of_le (unitExponent_mono hx h) with hlt | heq
  · have hbegin : 2 ^ 52 ≤ nearestEven (y / 2 ^ unitExponent y) := by
      rcases le_div_unit (hx.trans_le h) with hfull | hleast
      · exact le_nearestEven (by exact_mod_cast hfull)
      · omega
    unfold place
    omega
  · have hdiv : x / 2 ^ unitExponent y ≤ y / 2 ^ unitExponent y := by gcongr
    have hnum := nearestEven_mono hdiv
    unfold place
    rw [heq]
    omega

theorem place_eq (n : Bool) (x : ℚ) :
    ((rounded n x).exponent + 1074) * 2 ^ 52 + (rounded n x).mantissa = place x := by
  unfold rounded place
  dsimp only
  split
  · next h =>
    rw [h]
    push_cast
    ring
  · rfl

/-- Past the greatest scalar there is only the infinity. -/
theorem rank_nearest {x : ℚ} (hx : 0 < x) (n : Bool) :
    (nearest n x).rank = signed n (min (place x) (2047 * 2 ^ 52)) := by
  obtain ⟨hm, -, hfull⟩ := rounded_fields hx n
  have hplace := place_eq n x
  unfold nearest
  split
  · rw [ScalarKind.rank, min_eq_right (by omega)]
  · rw [ScalarKind.rank, Dyadic.rank, negative_rounded, hplace, min_eq_left (by omega)]

/-- The rank of the scalar that a number is rounded to. -/
def landing (q : ℚ) : Int :=
  signed (decide (q < 0)) (if q = 0 then 0 else min (place |q|) (2047 * 2 ^ 52))

theorem landing_zero : landing 0 = 0 := by simp [landing]

theorem landing_of_pos {q : ℚ} (h : 0 < q) : landing q = min (place q) (2047 * 2 ^ 52) := by
  rw [landing, decide_eq_false h.not_gt, if_neg h.ne', abs_of_pos h, signed_false]

theorem landing_neg (q : ℚ) : landing (-q) = -landing q := by
  unfold landing
  rcases lt_trichotomy q 0 with h | rfl | h
  · simp [h, h.ne, h.not_gt]
  · simp
  · simp [h, h.ne', h.not_gt]

theorem landing_nonneg {q : ℚ} (h : 0 ≤ q) : 0 ≤ landing q := by
  rcases h.eq_or_lt with rfl | hpos
  · exact landing_zero.ge
  · have hmin := unitExponent_ge q
    rw [landing_of_pos hpos, place]
    omega

theorem landing_mono : Monotone landing := by
  have hpos {p q : ℚ} (hp : 0 ≤ p) (h : p ≤ q) : landing p ≤ landing q := by
    rcases hp.eq_or_lt with rfl | hp
    · exact landing_zero.trans_le (landing_nonneg h)
    · rw [landing_of_pos hp, landing_of_pos (hp.trans_le h)]
      exact min_le_min_right _ (place_mono hp h)
  intro p q h
  rcases le_or_gt 0 p with hp | hp
  · exact hpos hp h
  · have hneg : 0 ≤ landing (-p) := landing_nonneg (neg_nonneg.2 hp.le)
    rw [landing_neg] at hneg
    rcases le_or_gt 0 q with hq | hq
    · have := landing_nonneg hq
      omega
    · have hrev := hpos (neg_nonneg.2 hq.le) (neg_le_neg h)
      rw [landing_neg, landing_neg] at hrev
      omega

namespace Scalar

/-- The exact number that a finite scalar is. -/
def value (x : Float) : ℚ :=
  match kind x with
  | .finite d => d.value
  | _ => 0

theorem value_of_kind {x : Float} {d : Dyadic} (h : kind x = .finite d) : value x = d.value := by
  simp only [value, h]

theorem value_zero (n : Bool) : value (zero n) = 0 := by
  rw [value_of_kind (kind_zero n)]
  cases n <;> simp [Dyadic.value, Dyadic.magnitude]

theorem value_neg (x : Float) : value (-x) = -value x := by
  unfold value
  rw [kind_neg]
  cases kind x with
  | nan | infinite n => exact neg_zero.symm
  | finite d =>
    obtain ⟨n, m, e⟩ := d
    cases n <;> simp [ScalarKind.neg, Dyadic.value, Dyadic.magnitude]

/-- A finite scalar is not changed by rounding. -/
theorem landing_value {x : Float} (h : x.isFinite = true) : landing (value x) = rank x := by
  rcases finite_cases h with ⟨n, rfl⟩ | ⟨d, hd, hpos⟩
  · rw [value_zero, landing_zero]
    cases n <;> decide
  · have hmag := Dyadic.magnitude_pos hpos
    have hnear := (canonical_of_kind hd).nearest_magnitude hpos
    have hrank : landing d.magnitude = signed d.negative d.rank := by
      rw [landing_of_pos hmag]
      have h := rank_nearest hmag d.negative
      rw [hnear, ScalarKind.rank] at h
      rw [h]
      cases d.negative <;> simp
    rw [value_of_kind hd, rank, hd, ScalarKind.rank, Dyadic.value]
    cases hn : d.negative with
    | true => rw [if_pos rfl, landing_neg, hrank, hn, signed_true, neg_neg]
    | false => rw [if_neg Bool.false_ne_true, hrank, hn, signed_false]

theorem value_of_rank_zero {x : Float} (h : x.isFinite = true) (h0 : rank x = 0) : value x = 0 := by
  rcases finite_cases h with ⟨n, rfl⟩ | ⟨d, hd, hpos⟩
  · exact value_zero n
  · obtain ⟨-, -, hz⟩ := fields_bounds (canonical_of_kind hd)
    rw [rank, hd, ScalarKind.rank, Dyadic.rank] at h0
    cases hn : d.negative with
    | true =>
      rw [hn, signed_true] at h0
      omega
    | false =>
      rw [hn, signed_false] at h0
      omega

/-- Finite scalars are in the order of the numbers that they are. -/
theorem le_iff_value {x y : Float} (hx : x.isFinite = true) (hy : y.isFinite = true) :
    x ≤ y ↔ value x ≤ value y := by
  have hnx := isNaN_of_isFinite hx
  have hny := isNaN_of_isFinite hy
  rw [le_iff]
  constructor
  · rintro ⟨-, -, hr⟩
    by_contra hlt
    have hmono := landing_mono (not_le.1 hlt).le
    rw [landing_value hx, landing_value hy] at hmono
    have heq : rank x = rank y := le_antisymm hr hmono
    rcases eq_or_ne (rank x) 0 with h0 | h0
    · rw [value_of_rank_zero hx h0, value_of_rank_zero hy (heq ▸ h0)] at hlt
      exact hlt le_rfl
    · rw [eq_of_rank_eq hnx hny heq h0] at hlt
      exact hlt le_rfl
  · intro h
    have hmono := landing_mono h
    rw [landing_value hx, landing_value hy] at hmono
    exact ⟨hnx, hny, hmono⟩

theorem lt_iff_value {x y : Float} (hx : x.isFinite = true) (hy : y.isFinite = true) :
    x < y ↔ value x < value y := by
  rw [← not_le_iff (isNaN_of_isFinite hy) (isNaN_of_isFinite hx), le_iff_value hy hx, not_le]

/-- A scalar that is not below zero has no sign, unless it is the negative zero. -/
theorem mantissa_of_negative {x : Float} {d : Dyadic} (h : 0 ≤ x) (hd : kind x = .finite d)
    (hn : d.negative = true) : d.mantissa = 0 := by
  obtain ⟨-, -, hrank⟩ := (le_iff 0 x).1 h
  obtain ⟨h0, -, hz⟩ := fields_bounds (canonical_of_kind hd)
  rw [rank_zero, rank, hd, ScalarKind.rank, Dyadic.rank, hn, signed_true] at hrank
  exact hz.1 (by omega)

theorem value_of_nonneg {x : Float} {d : Dyadic} (h : 0 ≤ x) (hd : kind x = .finite d) :
    value x = d.magnitude := by
  rw [value_of_kind hd, Dyadic.value]
  cases hn : d.negative with
  | true => simp [Dyadic.magnitude, mantissa_of_negative h hd hn]
  | false => exact if_neg Bool.false_ne_true

theorem value_nonneg {x : Float} (h : 0 ≤ x) : 0 ≤ value x := by
  cases hk : kind x with
  | nan | infinite n => simp [value, hk]
  | finite d =>
    rw [value_of_nonneg h hk, Dyadic.magnitude]
    positivity

theorem rank_of_kind_nearest {x : Float} {q : ℚ} {n : Bool} (hq : 0 < q)
    (h : kind x = nearest n q) : x.isNaN = false ∧ rank x = signed n (landing q) := by
  rw [isNaN_eq_false_iff, rank, h, landing_of_pos hq]
  refine ⟨?_, rank_nearest hq n⟩
  unfold nearest
  split <;> exact ScalarKind.noConfusion

/-- A finite scalar above zero is exactly its value. -/
theorem hasValue_value {x : Float} (hx : x.isFinite = true) (h : 0 < x) : HasValue x (value x) := by
  have hpos : 0 < value x := by
    have hlt := (lt_iff_value (x := 0) (by decide) hx).1 h
    rwa [show value 0 = 0 from value_zero false] at hlt
  obtain ⟨d, hd⟩ := (isFinite_iff x).1 hx
  have hmag := value_of_nonneg (le_of_lt h) hd
  have hm : 0 < d.mantissa := by
    refine Nat.pos_of_ne_zero fun h0 => hpos.ne' ?_
    rw [hmag, Dyadic.magnitude, h0, Nat.cast_zero, zero_mul]
  refine ⟨d, hd, ?_, hm, hmag.symm⟩
  by_contra hn
  exact hm.ne' (mantissa_of_negative (le_of_lt h) hd (Bool.eq_true_of_not_eq_false hn))

theorem HasValue.isFinite {x : Float} {a : ℚ} (h : HasValue x a) : x.isFinite = true := by
  obtain ⟨d, hd, -⟩ := h
  exact (isFinite_iff x).2 ⟨d, hd⟩

theorem HasValue.value_eq {x : Float} {a : ℚ} (h : HasValue x a) : value x = a := by
  obtain ⟨d, hd, hn, -, rfl⟩ := h
  rw [value_of_kind hd, Dyadic.value, hn]
  exact if_neg Bool.false_ne_true

theorem HasValue.rank_eq {x : Float} {a : ℚ} (h : HasValue x a) :
    x.isNaN = false ∧ rank x = landing a :=
  rank_of_kind_nearest (leastUnit_pos.trans_le h.leastUnit_le) h.kind_eq

/-- The sum of two finite scalars is the rounded exact sum, and a number. -/
theorem rank_add {x y : Float} (hx : x.isFinite = true) (hy : y.isFinite = true) :
    (x + y).isNaN = false ∧ rank (x + y) = landing (value x + value y) := by
  rcases finite_cases hx with ⟨n, rfl⟩ | ⟨d, hd, hpos⟩
  · rcases finite_cases hy with ⟨n', rfl⟩ | ⟨d', hd', hpos'⟩
    · rw [value_zero, value_zero, add_zero, landing_zero]
      cases n <;> cases n' <;> decide
    · rw [zero_add_eq (ne_zero_of_digits hd' hpos' true), value_zero, zero_add, landing_value hy]
      exact ⟨isNaN_of_isFinite hy, rfl⟩
  · rcases finite_cases hy with ⟨n', rfl⟩ | ⟨d', hd', hpos'⟩
    · rw [add_zero_eq (ne_zero_of_digits hd hpos true), value_zero, add_zero, landing_value hx]
      exact ⟨isNaN_of_isFinite hx, rfl⟩
    · have hk := kind_add hd hd' hpos hpos'
      rw [value_of_kind hd, value_of_kind hd']
      generalize d.value + d'.value = q at hk
      split at hk
      · next h0 =>
        rw [isNaN_eq_false_iff, rank, hk, h0, landing_zero]
        exact ⟨ScalarKind.noConfusion, rfl⟩
      · next h0 =>
        obtain ⟨hnum, hrank⟩ := rank_of_kind_nearest (abs_pos.2 h0) hk
        refine ⟨hnum, hrank.trans ?_⟩
        rcases lt_or_gt_of_ne h0 with hneg | hgt
        · rw [decide_eq_true hneg, signed_true, abs_of_neg hneg, landing_neg, neg_neg]
        · rw [decide_eq_false hgt.not_gt, signed_false, abs_of_pos hgt]

theorem le_add_of_nonneg {x y : Float} (hx : x.isFinite = true) (hy : y.isFinite = true)
    (h : 0 ≤ y) : x ≤ x + y := by
  obtain ⟨hnum, hrank⟩ := rank_add hx hy
  rw [le_iff, hrank, ← landing_value hx]
  exact ⟨isNaN_of_isFinite hx, hnum, landing_mono (le_add_of_nonneg_right (value_nonneg h))⟩

/-! ## Differences -/

theorem apply_neg (s : Sign) (n : Int) : (-s).apply n = -s.apply n := by
  cases s with
  | negative => exact (Int.neg_neg n).symm
  | positive => rfl

/-- The cases of a difference are those of the sum with the sign of the second part reversed. -/
theorem sub_form (u v : UnpackedFloat) :
    UnpackedFloat.sub .binary64 u v = UnpackedFloat.add .binary64 u v.neg := by
  cases u with
  | notANumber => rfl
  | infinity s | zero s => cases v <;> rfl
  | finite s m e hm =>
    cases v with
    | notANumber | infinity s' | zero s' => rfl
    | finite s' m' e' hm' =>
      simp only [UnpackedFloat.sub, UnpackedFloat.add, UnpackedFloat.neg, apply_neg,
        Int.sub_eq_add_neg]

theorem sub_eq_add (x y : Float) : x - y = x + -y := by
  change ofForm (UnpackedFloat.sub .binary64 x.toModel.unpack y.toModel.unpack) =
    ofForm (UnpackedFloat.add .binary64 x.toModel.unpack (-y).toModel.unpack)
  rw [sub_form, unpack_eq (-y), kind_neg, ← ScalarKind.neg_form, unpack_eq y]

theorem isFinite_neg (x : Float) : (-x).isFinite = x.isFinite := by
  rw [Bool.eq_iff_iff, isFinite_iff, isFinite_iff, kind_neg]
  cases kind x <;> simp [ScalarKind.neg]

theorem rank_sub {x y : Float} (hx : x.isFinite = true) (hy : y.isFinite = true) :
    (x - y).isNaN = false ∧ rank (x - y) = landing (value x - value y) := by
  rw [sub_eq_add, sub_eq_add_neg, ← value_neg]
  exact rank_add hx ((isFinite_neg y).trans hy)

theorem sub_le_of_nonneg {x y : Float} (hx : x.isFinite = true) (hy : y.isFinite = true)
    (h : 0 ≤ y) : x - y ≤ x := by
  obtain ⟨hnum, hrank⟩ := rank_sub hx hy
  rw [le_iff, hrank, ← landing_value hx]
  exact ⟨hnum, isNaN_of_isFinite hx, landing_mono (sub_le_self _ (value_nonneg h))⟩

/-! ## Operations with an infinity -/

theorem isNaN_ofForm_infinity (s : Sign) : (ofForm (.infinity s)).isNaN = false := by
  cases s <;> decide

/-- A number added to a finite scalar gives a number. -/
theorem isNaN_add {x y : Float} (hx : x.isFinite = true) (hy : y.isNaN = false) :
    (x + y).isNaN = false := by
  cases hk : kind y with
  | nan => exact absurd hk ((isNaN_eq_false_iff y).1 hy)
  | finite d => exact (rank_add hx ((isFinite_iff y).2 ⟨d, hk⟩)).1
  | infinite n =>
    have hform : UnpackedFloat.add .binary64 x.toModel.unpack y.toModel.unpack =
        .infinity (signOf n) := by
      rw [unpack_eq y, hk]
      rcases finite_cases hx with ⟨n', rfl⟩ | ⟨d, hd, hpos⟩
      · rw [unpack_zero]
        rfl
      · rw [unpack_finite hd hpos]
        rfl
    change (ofForm (UnpackedFloat.add .binary64 x.toModel.unpack y.toModel.unpack)).isNaN = false
    rw [hform]
    exact isNaN_ofForm_infinity _

/-! ## Products -/

section
variable {x y z : Float} {a b c : ℚ}

theorem HasValue.rank_mul (hx : HasValue x a) (hy : HasValue y b) :
    (x * y).isNaN = false ∧ rank (x * y) = landing (a * b) := by
  have hpos := mul_pos (leastUnit_pos.trans_le hx.leastUnit_le)
    (leastUnit_pos.trans_le hy.leastUnit_le)
  exact rank_of_kind_nearest hpos (hx.kind_mul hy)

theorem HasValue.mul_nonneg (hx : HasValue x a) (hy : HasValue y b) : 0 ≤ x * y := by
  have hpos := mul_pos (leastUnit_pos.trans_le hx.leastUnit_le)
    (leastUnit_pos.trans_le hy.leastUnit_le)
  obtain ⟨hnum, hrank⟩ := hx.rank_mul hy
  rw [le_iff, rank_zero, hrank]
  exact ⟨isNaN_zero, hnum, landing_nonneg hpos.le⟩

/-- Products are rounded to no more than a scalar that the exact product does not exceed. -/
theorem HasValue.mul_le (hx : HasValue x a) (hy : HasValue y b) (hz : HasValue z c)
    (h : a * b ≤ c) : x * y ≤ z := by
  obtain ⟨hnum, hrank⟩ := hx.rank_mul hy
  obtain ⟨hnum', hrank'⟩ := hz.rank_eq
  rw [le_iff, hrank, hrank']
  exact ⟨hnum, hnum', landing_mono h⟩

end

/-- A number times a positive number is a number. -/
theorem isNaN_mul {x y : Float} {b : ℚ} (hx : x.isNaN = false) (hy : HasValue y b) :
    (x * y).isNaN = false := by
  obtain ⟨d, hd, hn, hpos, -⟩ := hy
  cases hk : kind x with
  | nan => exact absurd hk ((isNaN_eq_false_iff x).1 hx)
  | finite d' =>
    rcases finite_cases ((isFinite_iff x).2 ⟨d', hk⟩) with ⟨n, rfl⟩ | ⟨d', hd', hpos'⟩
    · obtain ⟨n', h⟩ := zero_mul_of_isFinite n ((isFinite_iff y).2 ⟨d, hd⟩)
      rw [h]
      cases n' <;> decide
    · exact (rank_of_kind_nearest (mul_pos (Dyadic.magnitude_pos hpos') (Dyadic.magnitude_pos hpos))
        (kind_mul hd' hd hpos' hpos)).1
  | infinite n =>
    have hform : UnpackedFloat.mul .binary64 x.toModel.unpack y.toModel.unpack =
        .infinity (signOf n * signOf d.negative) := by
      rw [unpack_eq x, hk, unpack_finite hd hpos]
      rfl
    change (ofForm (UnpackedFloat.mul .binary64 x.toModel.unpack y.toModel.unpack)).isNaN = false
    rw [hform]
    exact isNaN_ofForm_infinity _

end Scalar
end BusRegen
