import BusRegen.Proofs.Scalar.Increasing
/-!
# Signs of results that need not be finite

An operation may meet an infinity or a zero divisor, and then its result may be no number. As long
as it is one, its sign is that of the exact operation on the signs of the operands (`mul_nonneg`,
`div_nonneg`, `div_nonpos`), a difference is not negative if the first operand is not the lesser
(`sub_nonneg_of_le`), and what is added or taken off moves a scalar in its direction (`le_add`,
`sub_le`, `add_le`). Nothing is asked of the size of the operands.

`larger` and `smaller` pass over a NaN, so that with a number on the right they always give a
number, one that is not beyond it (`le_larger`, `smaller_le`).
-/
namespace BusRegen

open Float.Model (UnpackedFloat)

namespace Scalar

variable {x x' y y' : Float}

theorem le_refl (h : x.isNaN = false) : x ≤ x :=
  (le_iff x x).2 ⟨h, h, Int.le_refl _⟩

theorem le_trans {z : Float} (hxy : x ≤ y) (hyz : y ≤ z) : x ≤ z := by
  rw [le_iff] at *
  exact ⟨hxy.1, hyz.2.1, hxy.2.2.trans hyz.2.2⟩

theorem isNaN_of_le (h : x ≤ y) : x.isNaN = false ∧ y.isNaN = false :=
  ⟨((le_iff x y).1 h).1, ((le_iff x y).1 h).2.1⟩

theorem not_lt_of_le (h : x ≤ y) : ¬ y < x :=
  (not_lt_iff (isNaN_of_le h).2 (isNaN_of_le h).1).2 h

theorem eq_infinity_of_le (h : infinity false ≤ x) : x = infinity false := by
  rcases le_cases h with h' | h' | ⟨h', -⟩
  · exact absurd h' (by decide)
  · exact h'
  · exact absurd h' (by decide)

/-! ## Sums and differences -/

theorem le_add (hy : 0 ≤ y) (h : (x + y).isNaN = false) : x ≤ x + y := by
  rcases number_cases (isNaN_of_add h).1 with hx | ⟨n, rfl⟩
  · exact self_le_add hx hy
  · rw [infinity_add h]
    exact le_refl (by cases n <;> decide)

theorem add_le (hy : y ≤ 0) (h : (x + y).isNaN = false) : x + y ≤ x := by
  rcases number_cases (isNaN_of_add h).1 with hx | ⟨n, rfl⟩
  · have hzero := rank_add hx (y := 0) (by decide)
    have hvalue : value x + value 0 = value x := by
      rw [← zero_false, value_zero, add_zero]
    rw [hvalue, landing_value hx] at hzero
    refine le_trans (add_mono (le_refl (isNaN_of_isFinite hx)) hy h hzero.1) ?_
    exact (le_iff _ _).2 ⟨hzero.1, isNaN_of_isFinite hx, hzero.2.le⟩
  · rw [infinity_add h]
    exact le_refl (by cases n <;> decide)

theorem sub_le (hy : 0 ≤ y) (h : (x - y).isNaN = false) : x - y ≤ x := by
  rw [sub_eq_add] at h ⊢
  exact add_le ((neg_nonpos_iff y).2 hy) h

theorem sub_nonneg_of_le (hxy : y ≤ x) (h : (x - y).isNaN = false) : 0 ≤ x - y := by
  have hneg (n : Bool) : -infinity n = infinity !n := by cases n <;> decide
  rcases le_cases hxy with rfl | rfl | ⟨hy, hx⟩
  · rw [sub_eq_add, hneg] at h ⊢
    rw [add_infinity h]
    decide
  · rw [sub_eq_add] at h ⊢
    rw [infinity_add h]
    decide
  · exact zero_le_sub hx hy hxy

/-- A number and a finite scalar have a number as their sum, in this order too. -/
theorem isNaN_add_right (hx : x.isNaN = false) (hy : y.isFinite = true) :
    (x + y).isNaN = false := by
  rcases number_cases hx with hfx | ⟨n, rfl⟩
  · exact isNaN_add hfx (isNaN_of_isFinite hy)
  · have hform : UnpackedFloat.add .binary64 (infinity n).toModel.unpack y.toModel.unpack =
        .infinity (signOf n) := by
      rw [unpack_infinity]
      rcases finite_cases hy with ⟨n', rfl⟩ | ⟨d, hd, hpos⟩
      · rw [unpack_zero]
        rfl
      · rw [unpack_finite hd hpos]
        rfl
    change (ofForm (UnpackedFloat.add .binary64 (infinity n).toModel.unpack _)).isNaN = false
    rw [hform]
    exact isNaN_ofForm_infinity _

theorem isNaN_sub (hx : x.isNaN = false) (hy : y.isFinite = true) : (x - y).isNaN = false := by
  rw [sub_eq_add]
  exact isNaN_add_right hx ((isFinite_neg y).trans hy)

/-! ## Products and quotients -/

/-- A scalar that is not negative is a zero, a positive number or the upper infinity. -/
theorem nonneg_forms (h : 0 ≤ x) :
    (∃ n, x = zero n) ∨ HasValue x (value x) ∨ x = infinity false := by
  rcases number_cases (isNaN_of_le h).2 with hfin | ⟨n, rfl⟩
  · rcases finite_cases hfin with hzero | ⟨d, hd, hpos⟩
    · exact .inl hzero
    · refine .inr (.inl ⟨d, hd, ?_, hpos, (value_of_nonneg h hd).symm⟩)
      rw [← Bool.not_eq_true]
      exact fun hn => hpos.ne' (mantissa_of_negative h hd hn)
  · cases n with
    | true => exact absurd h (by decide)
    | false => exact .inr (.inr rfl)

theorem mul_nonneg (hx : 0 ≤ x) (hy : 0 ≤ y) (h : (x * y).isNaN = false) : 0 ≤ x * y := by
  rcases nonneg_forms hy with ⟨n, rfl⟩ | hv | rfl
  · rcases number_cases (isNaN_of_le hx).2 with hfin | ⟨n', rfl⟩
    · rw [le_iff, (rank_mul hfin (by cases n <;> decide)).2, value_zero, mul_zero, landing_zero]
      exact ⟨isNaN_zero, h, rank_zero.le⟩
    · cases n <;> cases n' <;> exact absurd h (by decide)
  · exact zero_le_mul hx hv
  · rcases number_cases (isNaN_of_le hx).2 with hfin | ⟨n', rfl⟩
    · rw [mul_infinity hx hfin h]
      decide
    · cases n' with
      | true => exact absurd hx (by decide)
      | false => decide

theorem div_nonneg {b : ℚ} (hx : 0 ≤ x) (hy : HasValue y b) : 0 ≤ x / y := by
  have h := div_mono hy hx
  rwa [← zero_false, hy.zero_div, zero_false] at h

/-- A scalar below zero has digits or is the lower infinity. -/
theorem negative_forms (h : y < 0) :
    (∃ d, kind y = .finite d ∧ d.negative = true ∧ 0 < d.mantissa) ∨ y = infinity true := by
  rcases number_cases ((lt_iff y 0).1 h).1 with hfin | ⟨n, rfl⟩
  · rcases finite_cases hfin with ⟨n, rfl⟩ | ⟨d, hd, hpos⟩
    · cases n <;> exact absurd h (by decide)
    · refine .inl ⟨d, hd, ?_, hpos⟩
      obtain ⟨-, -, hrank⟩ := (lt_iff y 0).1 h
      obtain ⟨h0, -, -⟩ := fields_bounds (canonical_of_kind hd)
      rw [rank_zero, rank, hd, ScalarKind.rank, Dyadic.rank] at hrank
      by_contra hn
      rw [Bool.eq_false_of_not_eq_true hn, signed_false] at hrank
      omega
  · cases n with
    | true => exact .inr rfl
    | false => exact absurd h (by decide)

theorem div_nonpos (hx : 0 ≤ x) (hy : y < 0) (h : (x / y).isNaN = false) : x / y ≤ 0 := by
  rcases negative_forms hy with ⟨d, hd, hneg, hpos⟩ | rfl
  · rcases nonneg_forms hx with ⟨n, rfl⟩ | ⟨e, he, hn, hpos', -⟩ | rfl
    · obtain ⟨n', hzero⟩ := zero_div_of_kind n hd hpos
      rw [hzero]
      cases n' <;> decide
    · have hq := div_pos (Dyadic.magnitude_pos hpos') (Dyadic.magnitude_pos hpos)
      have hk := kind_div he hd hpos' hpos
      rw [hn, hneg] at hk
      obtain ⟨-, hrank⟩ := rank_of_kind_nearest hq hk
      have := landing_nonneg hq.le
      rw [le_iff, hrank, rank_zero]
      exact ⟨h, isNaN_zero, by rw [Bool.false_xor, signed_true]; omega⟩
    · have hform : infinity false / y = infinity true := by
        change ofForm (UnpackedFloat.div .binary64 (infinity false).toModel.unpack _) = _
        rw [unpack_infinity, unpack_finite hd hpos, hneg, ← ofForm_infinity]
        rfl
      rw [hform]
      decide
  · rcases nonneg_forms hx with ⟨n, rfl⟩ | ⟨e, he, hn, hpos, -⟩ | rfl
    · cases n <;> decide
    · have hform : x / infinity true = zero true := by
        change ofForm (UnpackedFloat.div .binary64 x.toModel.unpack _) = _
        rw [unpack_infinity, unpack_finite he hpos, hn, ← ofForm_zero]
        rfl
      rw [hform]
      decide
    · exact absurd h (by decide)

/-! ## The larger and the smaller of two -/

section
variable {b z : Float} (hb : b.isNaN = false)

include hb

theorem larger_eq (x : Float) : larger x b = if b < x then x else b := by
  rw [larger, hb, if_neg Bool.false_ne_true]

theorem smaller_eq (x : Float) : smaller x b = if x < b then x else b := by
  rw [smaller, hb, if_neg Bool.false_ne_true]

theorem le_larger (x : Float) : b ≤ larger x b := by
  rw [larger_eq hb]
  split
  · next h => exact le_of_lt h
  · exact le_refl hb

theorem smaller_le (x : Float) : smaller x b ≤ b := by
  rw [smaller_eq hb]
  split
  · next h => exact le_of_lt h
  · exact le_refl hb

/-- A bound of both is a bound of the larger; a NaN needs none. -/
theorem larger_le (hx : x.isNaN = false → x ≤ z) (hbz : b ≤ z) : larger x b ≤ z := by
  rw [larger_eq hb]
  split
  · next h => exact hx ((lt_iff b x).1 h).2.1
  · exact hbz

theorem le_smaller (hx : x.isNaN = false → z ≤ x) (hbz : z ≤ b) : z ≤ smaller x b := by
  rw [smaller_eq hb]
  split
  · next h => exact hx ((lt_iff x b).1 h).1
  · exact hbz

theorem le_larger_left (hx : x.isNaN = false) : x ≤ larger x b := by
  rw [larger_eq hb]
  split
  · exact le_refl hx
  · next h => exact (not_lt_iff hb hx).1 h

theorem smaller_le_left (hx : x.isNaN = false) : smaller x b ≤ x := by
  rw [smaller_eq hb]
  split
  · exact le_refl hx
  · next h => exact (not_lt_iff hx hb).1 h

theorem larger_mono (h : x ≤ x') : larger x b ≤ larger x' b :=
  larger_le hb (fun _ => le_trans h (le_larger_left hb (isNaN_of_le h).2)) (le_larger hb x')

theorem smaller_mono (h : x ≤ x') : smaller x b ≤ smaller x' b :=
  le_smaller hb (fun _ => le_trans (smaller_le_left hb (isNaN_of_le h).1) h) (smaller_le hb x)

end

end Scalar
end BusRegen
