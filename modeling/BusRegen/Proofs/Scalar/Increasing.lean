import BusRegen.Proofs.Scalar.Bounds
/-!
# Operations grow with their operands

Every operation rounds its exact result to the nearest scalar, so it grows where the exact operation
grows. An infinity that takes part in it is greater or less than everything, and stays so
(`infinity_add`, `mul_infinity`, `infinity_div`), unless it meets a partner that leaves no number at
all. So no bounds are needed for `add_mono`, `sub_mono`, `mul_mono_left`, `mul_mono_right` and
`div_mono`, only that both results are numbers. A NaN goes through every operation, so where a
result is a number the operands are numbers too (`isNaN_of_add` and its like).
-/
namespace BusRegen

open Float.Model (UnpackedFloat)
open Float.Model.UnpackedFloat

namespace Scalar

/-! ## Infinities -/

theorem kind_infinity (n : Bool) : kind (infinity n) = .infinite n := by cases n <;> decide

theorem unpack_infinity (n : Bool) : (infinity n).toModel.unpack = .infinity (signOf n) := by
  rw [unpack_eq, kind_infinity]
  rfl

theorem ofForm_infinity (n : Bool) : ofForm (.infinity (signOf n)) = infinity n := by
  rw [← unpack_infinity, ofForm_unpack]

theorem isNaN_ofForm : (ofForm .notANumber).isNaN = true := by decide

/-- A number is finite or an infinity. -/
theorem number_cases {x : Float} (h : x.isNaN = false) :
    x.isFinite = true ∨ ∃ n, x = infinity n := by
  cases hk : kind x with
  | nan => exact absurd hk ((isNaN_eq_false_iff x).1 h)
  | finite d => exact .inl ((isFinite_iff x).2 ⟨d, hk⟩)
  | infinite n => exact .inr ⟨n, eq_of_kind_eq (hk.trans (kind_infinity n).symm)⟩

theorem abs_rank_le (x : Float) : |rank x| ≤ 2047 * 2 ^ 52 := by
  cases hx : x.isNaN with
  | true =>
    rw [rank, (isNaN_iff x).1 hx]
    decide
  | false =>
    rcases number_cases hx with hfin | ⟨n, rfl⟩
    · exact (abs_rank_of_isFinite hfin).le
    · rw [rank, kind_infinity, abs_rank_infinite]

theorem le_infinity {x : Float} (h : x.isNaN = false) : x ≤ infinity false :=
  (le_iff _ _).2 ⟨h, by decide, (abs_le.1 (abs_rank_le x)).2⟩

theorem infinity_le {x : Float} (h : x.isNaN = false) : infinity true ≤ x :=
  (le_iff _ _).2 ⟨by decide, h, (abs_le.1 (abs_rank_le x)).1⟩

/-- Finite scalars are strictly between the infinities. -/
theorem lt_infinity {x : Float} (h : x.isFinite = true) :
    x < infinity false ∧ infinity true < x := by
  obtain ⟨hlow, hhigh⟩ := abs_lt.1 (abs_rank_of_isFinite h)
  have hnum := isNaN_of_isFinite h
  rw [lt_iff, lt_iff]
  exact ⟨⟨hnum, by decide, hhigh⟩, by decide, hnum, hlow⟩

/-- Of two numbers in order the first is the lower infinity, or the second the upper one, or both
are finite. -/
theorem le_cases {x y : Float} (h : x ≤ y) :
    x = infinity true ∨ y = infinity false ∨ x.isFinite = true ∧ y.isFinite = true := by
  obtain ⟨hx, hy, -⟩ := (le_iff x y).1 h
  rcases number_cases hx with hfx | ⟨n, rfl⟩
  · rcases number_cases hy with hfy | ⟨n, rfl⟩
    · exact .inr (.inr ⟨hfx, hfy⟩)
    · cases n with
      | true => exact absurd h ((not_le_iff hx hy).2 (lt_infinity hfx).2)
      | false => exact .inr (.inl rfl)
  · cases n with
    | true => exact .inl rfl
    | false =>
      rcases number_cases hy with hfy | ⟨n, rfl⟩
      · exact absurd h ((not_le_iff hx hy).2 (lt_infinity hfy).1)
      · cases n with
        | true => exact absurd h (by decide)
        | false => exact .inr (.inl rfl)

/-! ## Numbers from numbers -/

theorem unpack_of_isNaN {x : Float} (h : x.isNaN = true) : x.toModel.unpack = .notANumber := by
  rw [unpack_eq, (isNaN_iff x).1 h]
  rfl

/-- An operation through which NaNs go has a number as its result only if it was given numbers. -/
theorem isNaN_of_form {f : UnpackedFloat → UnpackedFloat → UnpackedFloat}
    (hl : ∀ u, f .notANumber u = .notANumber) (hr : ∀ u, f u .notANumber = .notANumber)
    {x y : Float} (h : (ofForm (f x.toModel.unpack y.toModel.unpack)).isNaN = false) :
    x.isNaN = false ∧ y.isNaN = false := by
  constructor <;> rw [← Bool.not_eq_true] <;> intro hnan
  · rw [unpack_of_isNaN hnan, hl, isNaN_ofForm] at h
    cases h
  · rw [unpack_of_isNaN hnan, hr, isNaN_ofForm] at h
    cases h

section
variable {x y : Float}

theorem isNaN_of_add (h : (x + y).isNaN = false) : x.isNaN = false ∧ y.isNaN = false :=
  isNaN_of_form (f := UnpackedFloat.add .binary64) (fun _ => rfl) (fun u => by cases u <;> rfl) h

theorem isNaN_of_sub (h : (x - y).isNaN = false) : x.isNaN = false ∧ y.isNaN = false :=
  isNaN_of_form (f := UnpackedFloat.sub .binary64) (fun _ => rfl) (fun u => by cases u <;> rfl) h

theorem isNaN_of_mul (h : (x * y).isNaN = false) : x.isNaN = false ∧ y.isNaN = false :=
  isNaN_of_form (f := UnpackedFloat.mul .binary64) (fun _ => rfl) (fun u => by cases u <;> rfl) h

theorem isNaN_of_div (h : (x / y).isNaN = false) : x.isNaN = false ∧ y.isNaN = false :=
  isNaN_of_form (f := UnpackedFloat.div .binary64) (fun _ => rfl) (fun u => by cases u <;> rfl) h

end

/-! ## Sums and differences -/

section
variable {x x' y y' : Float}

theorem add_form_infinite (u : UnpackedFloat) (n : Bool) :
    (UnpackedFloat.add .binary64 (.infinity (signOf n)) u = .infinity (signOf n) ∨
      UnpackedFloat.add .binary64 (.infinity (signOf n)) u = .notANumber) ∧
    (UnpackedFloat.add .binary64 u (.infinity (signOf n)) = .infinity (signOf n) ∨
      UnpackedFloat.add .binary64 u (.infinity (signOf n)) = .notANumber) := by
  cases u with
  | notANumber => exact ⟨.inr rfl, .inr rfl⟩
  | zero s | finite s m e hm => exact ⟨.inl rfl, .inl rfl⟩
  | infinity s => cases n <;> cases s <;> simp [UnpackedFloat.add, signOf]

theorem infinity_add {n : Bool} (h : (infinity n + y).isNaN = false) :
    infinity n + y = infinity n := by
  change (ofForm (UnpackedFloat.add .binary64 (infinity n).toModel.unpack _)).isNaN = false at h
  change ofForm (UnpackedFloat.add .binary64 (infinity n).toModel.unpack _) = _
  rw [unpack_infinity] at h ⊢
  rcases (add_form_infinite y.toModel.unpack n).1 with hf | hf
  · rw [hf, ofForm_infinity]
  · rw [hf, isNaN_ofForm] at h
    cases h

theorem add_infinity {n : Bool} (h : (x + infinity n).isNaN = false) :
    x + infinity n = infinity n := by
  change (ofForm (UnpackedFloat.add .binary64 _ (infinity n).toModel.unpack)).isNaN = false at h
  change ofForm (UnpackedFloat.add .binary64 _ (infinity n).toModel.unpack) = _
  rw [unpack_infinity] at h ⊢
  rcases (add_form_infinite x.toModel.unpack n).2 with hf | hf
  · rw [hf, ofForm_infinity]
  · rw [hf, isNaN_ofForm] at h
    cases h

theorem add_mono (hx : x ≤ x') (hy : y ≤ y') (h : (x + y).isNaN = false)
    (h' : (x' + y').isNaN = false) : x + y ≤ x' + y' := by
  rcases le_cases hx with rfl | rfl | ⟨hfx, hfx'⟩
  · rw [infinity_add h]
    exact infinity_le h'
  · rw [infinity_add h']
    exact le_infinity h
  rcases le_cases hy with rfl | rfl | ⟨hfy, hfy'⟩
  · rw [add_infinity h]
    exact infinity_le h'
  · rw [add_infinity h']
    exact le_infinity h
  have hvx := (le_iff_value hfx hfx').1 hx
  have hvy := (le_iff_value hfy hfy').1 hy
  rw [le_iff, (rank_add hfx hfy).2, (rank_add hfx' hfy').2]
  exact ⟨h, h', landing_mono (add_le_add hvx hvy)⟩

/-- Adding what is not negative does not lead down, even if it leads to the infinity. -/
theorem self_le_add {x y : Float} (hx : x.isFinite = true) (hy : 0 ≤ y) : x ≤ x + y := by
  have hsum := isNaN_add hx ((le_iff 0 y).1 hy).2.1
  rcases le_cases hy with h | rfl | ⟨-, hfy⟩
  · exact absurd h (by decide)
  · rw [add_infinity hsum]
    exact le_infinity (isNaN_of_isFinite hx)
  · exact le_add_of_nonneg hx hfy hy

theorem sub_mono (hx : x ≤ x') (hy : y' ≤ y) (h : (x - y).isNaN = false)
    (h' : (x' - y').isNaN = false) : x - y ≤ x' - y' := by
  rw [sub_eq_add x y] at h ⊢
  rw [sub_eq_add x' y'] at h' ⊢
  exact add_mono hx ((neg_le_neg_iff _ _).2 hy) h h'

/-- A scalar has no difference from itself but zero. -/
theorem rank_sub_self (h : (x - x).isNaN = false) : rank (x - x) = 0 := by
  rcases number_cases (isNaN_of_sub h).1 with hfin | ⟨n, rfl⟩
  · rw [(rank_sub hfin hfin).2, sub_self, landing_zero]
  · cases n <;> exact absurd h (by decide)

end

/-! ## Products and quotients -/

section
variable {k x y d : Float} {b : ℚ}

/-- An infinity keeps its sign in a product with a number that is not below zero. -/
theorem mul_infinity (hk : 0 ≤ k) (hfk : k.isFinite = true) {n : Bool}
    (h : (k * infinity n).isNaN = false) : k * infinity n = infinity n := by
  rcases finite_cases hfk with ⟨n', rfl⟩ | ⟨d, hd, hpos⟩
  · cases n <;> cases n' <;> exact absurd h (by decide)
  · have hsign : d.negative = false := by
      rw [← Bool.not_eq_true]
      exact fun hn => hpos.ne' (mantissa_of_negative hk hd hn)
    change ofForm (UnpackedFloat.mul .binary64 k.toModel.unpack (infinity n).toModel.unpack) = _
    rw [unpack_finite hd hpos, unpack_infinity, hsign, ← ofForm_infinity]
    cases n <;> rfl

theorem infinity_mul (hd : HasValue d b) (n : Bool) : infinity n * d = infinity n := by
  obtain ⟨e, hk, hn, hpos, -⟩ := hd
  change ofForm (UnpackedFloat.mul .binary64 (infinity n).toModel.unpack d.toModel.unpack) = _
  rw [unpack_finite hk hpos, unpack_infinity, hn, ← ofForm_infinity]
  cases n <;> rfl

theorem infinity_div (hd : HasValue d b) (n : Bool) : infinity n / d = infinity n := by
  obtain ⟨e, hk, hn, hpos, -⟩ := hd
  change ofForm (UnpackedFloat.div .binary64 (infinity n).toModel.unpack d.toModel.unpack) = _
  rw [unpack_finite hk hpos, unpack_infinity, hn, ← ofForm_infinity]
  cases n <;> rfl

theorem mul_mono_left (hk : 0 ≤ k) (hfk : k.isFinite = true) (hxy : x ≤ y)
    (h : (k * x).isNaN = false) (h' : (k * y).isNaN = false) : k * x ≤ k * y := by
  rcases le_cases hxy with rfl | rfl | ⟨hx, hy⟩
  · rw [mul_infinity hk hfk h]
    exact infinity_le h'
  · rw [mul_infinity hk hfk h']
    exact le_infinity h
  have hv := mul_le_mul_of_nonneg_left ((le_iff_value hx hy).1 hxy) (value_nonneg hk)
  rw [le_iff, (rank_mul hfk hx).2, (rank_mul hfk hy).2]
  exact ⟨h, h', landing_mono hv⟩

theorem mul_mono_right (hd : HasValue d b) (hxy : x ≤ y) : x * d ≤ y * d := by
  obtain ⟨hnx, hny, -⟩ := (le_iff x y).1 hxy
  have h := isNaN_mul hnx hd
  have h' := isNaN_mul hny hd
  rcases le_cases hxy with rfl | rfl | ⟨hx, hy⟩
  · rw [infinity_mul hd]
    exact infinity_le h'
  · rw [infinity_mul hd]
    exact le_infinity h
  have hv := mul_le_mul_of_nonneg_right ((le_iff_value hx hy).1 hxy)
    (value_nonneg (le_of_lt hd.pos))
  rw [le_iff, (rank_mul hx hd.isFinite).2, (rank_mul hy hd.isFinite).2]
  exact ⟨h, h', landing_mono hv⟩

/-- The quotient of a finite scalar and a positive one is the rounded exact quotient. -/
theorem rank_div (hx : x.isFinite = true) (hd : HasValue d b) :
    rank (x / d) = landing (value x / b) := by
  obtain ⟨e, hk, hn, hpos, rfl⟩ := hd
  rcases finite_cases hx with ⟨n, rfl⟩ | ⟨d', hk', hpos'⟩
  · obtain ⟨n', h⟩ := zero_div_of_kind n hk hpos
    rw [h, value_zero, zero_div, landing_zero]
    cases n' <;> decide
  · have hmag := div_pos (Dyadic.magnitude_pos hpos') (Dyadic.magnitude_pos hpos)
    rw [(rank_of_kind_nearest hmag (kind_div hk' hk hpos' hpos)).2, value_of_kind hk',
      Dyadic.value, hn]
    cases d'.negative <;> simp [landing_neg, neg_div]

theorem div_mono (hd : HasValue d b) (hxy : x ≤ y) : x / d ≤ y / d := by
  obtain ⟨hnx, hny, -⟩ := (le_iff x y).1 hxy
  have h := isNaN_div hnx hd
  have h' := isNaN_div hny hd
  rcases le_cases hxy with rfl | rfl | ⟨hx, hy⟩
  · rw [infinity_div hd]
    exact infinity_le h'
  · rw [infinity_div hd]
    exact le_infinity h
  have hb : 0 ≤ b := leastUnit_pos.le.trans hd.leastUnit_le
  have hv := div_le_div_of_nonneg_right ((le_iff_value hx hy).1 hxy) hb
  rw [le_iff, rank_div hx hd, rank_div hy hd]
  exact ⟨h, h', landing_mono hv⟩

end

end Scalar
end BusRegen
