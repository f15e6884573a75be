import BusRegen.Proofs.Scalar.Monotone
/-!
# Signs and bounds of results

What can be said of a sum, a product or a quotient without knowing it: that it is a number, that it
is not below zero, that it lies within bounds of its own. A product of finite scalars has the rank
`landing` of the exact product, as a sum of them has (`rank_mul`), so bounds go through rounding. A
result may be an infinity. Not below zero (`zero_le_add`, `zero_le_mul`) it is the positive one, and
it is a number as long as no infinity meets another one or a zero (`isNaN_div`).
-/
namespace BusRegen

open Float.Model (UnpackedFloat)
open Float.Model.UnpackedFloat

theorem abs_landing (q : ℚ) : |landing q| = landing |q| := by
  rcases le_total 0 q with h | h
  · rw [abs_of_nonneg h, abs_of_nonneg (landing_nonneg h)]
  · have hneg := landing_nonneg (neg_nonneg.2 h)
    rw [landing_neg] at hneg
    rw [abs_of_nonpos h, landing_neg]
    exact abs_of_nonpos (by omega)

/-- Rounding keeps bounds on either side. -/
theorem abs_landing_le {p q : ℚ} (h : |p| ≤ q) : |landing p| ≤ landing q :=
  (abs_landing p).trans_le (landing_mono h)

namespace Scalar

theorem isFinite_of_abs_rank_lt {x : Float} (hx : x.isNaN = false)
    (h : |rank x| < 2047 * 2 ^ 52) : x.isFinite = true := by
  rw [isFinite_iff]
  cases hk : kind x with
  | nan => exact absurd hk ((isNaN_eq_false_iff x).1 hx)
  | finite d => exact ⟨d, rfl⟩
  | infinite n =>
    rw [rank, hk, abs_rank_infinite] at h
    exact absurd h (lt_irrefl _)

/-- A number no greater than a finite scalar is finite, whatever the signs. -/
theorem isFinite_of_abs_rank_le {x y : Float} (hx : x.isNaN = false) (hy : y.isFinite = true)
    (h : |rank x| ≤ rank y) : x.isFinite = true :=
  isFinite_of_abs_rank_lt hx ((h.trans (le_abs_self _)).trans_lt (abs_rank_of_isFinite hy))

theorem abs_value_le {x y : Float} (hx : x.isFinite = true) (hy : y.isFinite = true)
    (h : |rank x| ≤ rank y) : |value x| ≤ value y := by
  have hnx := isNaN_of_isFinite hx
  have hny := isNaN_of_isFinite hy
  obtain ⟨hlow, hhigh⟩ := abs_le.1 h
  have hle : x ≤ y := (le_iff x y).2 ⟨hnx, hny, hhigh⟩
  have hge : -y ≤ x := by
    rw [le_iff, isNaN_neg, rank_neg]
    exact ⟨hny, hnx, hlow⟩
  rw [le_iff_value ((isFinite_neg y).trans hy) hx, value_neg] at hge
  exact abs_le.2 ⟨hge, (le_iff_value hx hy).1 hle⟩

theorem kind_abs {x : Float} {d : Dyadic} (h : kind x = .finite d) :
    kind x.abs = .finite { d with negative := false } := by
  have hc : d.Canonical := canonical_of_kind h
  have hform : (ScalarKind.finite d).form.abs =
      (ScalarKind.finite { d with negative := false }).form := by
    simp only [ScalarKind.form]
    split <;> rfl
  change kind (ofForm x.toModel.unpack.abs) = _
  rw [unpack_eq, h, hform]
  exact kind_ofForm ⟨hc.mantissa_lt, hc.exponent_ge, hc.exponent_le, hc.full⟩

theorem eq_signed_abs {x : Float} {d : Dyadic} (h : kind x = .finite d) :
    x = if d.negative then -x.abs else x.abs := by
  refine eq_of_kind_eq ?_
  obtain ⟨n, m, e⟩ := d
  cases n with
  | true => rw [if_pos rfl, kind_neg, kind_abs h, h]; rfl
  | false => rw [if_neg Bool.false_ne_true, kind_abs h, h]

theorem isFinite_abs {x : Float} (h : x.isFinite = true) : x.abs.isFinite = true := by
  obtain ⟨d, hd⟩ := (isFinite_iff x).1 h
  exact (isFinite_iff x.abs).2 ⟨_, kind_abs hd⟩

theorem value_abs {x : Float} (h : x.isFinite = true) : value x.abs = |value x| := by
  obtain ⟨d, hd⟩ := (isFinite_iff x).1 h
  have hmag : 0 ≤ d.magnitude := by
    unfold Dyadic.magnitude
    positivity
  rw [value_of_kind (kind_abs hd), value_of_kind hd, Dyadic.value, Dyadic.value,
    if_neg Bool.false_ne_true]
  split
  · rw [abs_neg, abs_of_nonneg hmag]
    rfl
  · rw [abs_of_nonneg hmag]
    rfl

/-- A scalar that is not below zero is finite or plus infinity. -/
theorem nonneg_cases {x : Float} (h : 0 ≤ x) :
    x.isFinite = true ∨ x.toModel.unpack = .infinity .positive := by
  obtain ⟨-, hnum, hrank⟩ := (le_iff 0 x).1 h
  rw [rank_zero, rank] at hrank
  rw [unpack_eq]
  cases hk : kind x with
  | nan => exact absurd hk ((isNaN_eq_false_iff x).1 hnum)
  | finite d => exact .inl ((isFinite_iff x).2 ⟨d, hk⟩)
  | infinite n =>
    rw [hk] at hrank
    cases n with
    | true => exact absurd hrank (by decide)
    | false => exact .inr rfl

theorem infinity_nonneg : 0 ≤ ofForm (.infinity .positive) := by decide

/-! ## Products and quotients -/

/-- The product of two finite scalars is the rounded exact product, and a number. -/
theorem rank_mul {x y : Float} (hx : x.isFinite = true) (hy : y.isFinite = true) :
    (x * y).isNaN = false ∧ rank (x * y) = landing (value x * value y) := by
  have hzero (n : Bool) : (zero n).isNaN = false ∧ rank (zero n) = landing 0 := by
    rw [landing_zero]
    cases n <;> decide
  rcases finite_cases hx with ⟨n, rfl⟩ | ⟨d, hd, hpos⟩
  · obtain ⟨n', h⟩ := zero_mul_of_isFinite n hy
    rw [h, value_zero, zero_mul]
    exact hzero n'
  · rcases finite_cases hy with ⟨n, rfl⟩ | ⟨d', hd', hpos'⟩
    · have h : x * zero n = zero (d.negative ^^ n) := by
        change ofForm (UnpackedFloat.mul .binary64 x.toModel.unpack (zero n).toModel.unpack) = _
        rw [unpack_finite hd hpos, unpack_zero, ← ofForm_zero, ← signOf_mul]
        rfl
      rw [h, value_zero, mul_zero]
      exact hzero _
    · have hmag := mul_pos (Dyadic.magnitude_pos hpos) (Dyadic.magnitude_pos hpos')
      obtain ⟨hnum, hrank⟩ := rank_of_kind_nearest hmag (kind_mul hd hd' hpos hpos')
      refine ⟨hnum, hrank.trans ?_⟩
      rw [value_of_kind hd, value_of_kind hd', Dyadic.value, Dyadic.value]
      cases d.negative <;> cases d'.negative <;> simp [landing_neg]

theorem isFinite_mul_form (u v : UnpackedFloat) (h : u.isFinite = false ∨ v.isFinite = false) :
    (UnpackedFloat.mul .binary64 u v).isFinite = false := by
  cases u with
  | notANumber => rfl
  | infinity s => cases v <;> rfl
  | zero s | finite s m e hm =>
    cases v with
    | notANumber | infinity s' => rfl
    | zero s' | finite s' m' e' hm' => rcases h with h | h <;> cases h

/-- The factors of a finite product are finite. -/
theorem isFinite_of_mul {x y : Float} (h : (x * y).isFinite = true) :
    x.isFinite = true ∧ y.isFinite = true := by
  by_contra hc
  have hxy : x.toModel.unpack.isFinite = false ∨ y.toModel.unpack.isFinite = false := by
    rwa [← Bool.not_eq_true, ← Bool.not_eq_true, ← not_and_or]
  have hf := isFinite_ofForm (isFinite_mul_form _ _ hxy)
  exact Bool.false_ne_true (hf.symm.trans h)

theorem isFinite_of_nonneg_of_le {x y : Float} (hx : 0 ≤ x) (hxy : x ≤ y)
    (hy : y.isFinite = true) : x.isFinite = true :=
  isFinite_of_mem (by decide) hy hx hxy

/-- A product grows in absolute value with a factor that is not below zero. -/
theorem abs_rank_mul_le {k x y : Float} (hk : k.isFinite = true) (hx : 0 ≤ x) (hxy : x ≤ y)
    (hy : y.isFinite = true) : (k * x).isNaN = false ∧ |rank (k * x)| ≤ rank (k.abs * y) := by
  have hfx : x.isFinite = true := isFinite_of_nonneg_of_le hx hxy hy
  have hvx : 0 ≤ value x := value_nonneg hx
  have hvxy : value x ≤ value y := (le_iff_value hfx hy).1 hxy
  obtain ⟨hnum, hrank⟩ := rank_mul hk hfx
  refine ⟨hnum, ?_⟩
  rw [hrank, (rank_mul (isFinite_abs hk) hy).2, value_abs hk]
  refine abs_landing_le ?_
  rw [abs_mul, abs_of_nonneg hvx]
  exact mul_le_mul_of_nonneg_left hvxy (abs_nonneg _)

/-- A number divided by a positive number is a number. -/
theorem isNaN_div {x y : Float} {b : ℚ} (hx : x.isNaN = false) (hy : HasValue y b) :
    (x / y).isNaN = false := by
  obtain ⟨d, hd, hn, hpos, -⟩ := hy
  cases hk : kind x with
  | nan => exact absurd hk ((isNaN_eq_false_iff x).1 hx)
  | finite d' =>
    rcases finite_cases ((isFinite_iff x).2 ⟨d', hk⟩) with ⟨n, rfl⟩ | ⟨d', hd', hpos'⟩
    · obtain ⟨n', h⟩ := zero_div_of_kind n hd hpos
      rw [h]
      cases n' <;> decide
    · exact (rank_of_kind_nearest (div_pos (Dyadic.magnitude_pos hpos') (Dyadic.magnitude_pos hpos))
        (kind_div hd' hd hpos' hpos)).1
  | infinite n =>
    have hform : UnpackedFloat.div .binary64 x.toModel.unpack y.toModel.unpack =
        .infinity (signOf n / signOf d.negative) := by
      rw [unpack_eq x, hk, unpack_finite hd hpos]
      rfl
    change (ofForm (UnpackedFloat.div .binary64 x.toModel.unpack y.toModel.unpack)).isNaN = false
    rw [hform]
    exact isNaN_ofForm_infinity _

theorem zero_le_mul {x y : Float} {b : ℚ} (hx : 0 ≤ x) (hy : HasValue y b) : 0 ≤ x * y := by
  rcases nonneg_cases hx with hfin | hinf
  · obtain ⟨hnum, hrank⟩ := rank_mul hfin hy.isFinite
    have hb : 0 ≤ b := leastUnit_pos.le.trans hy.leastUnit_le
    rw [le_iff, hrank, rank_zero, hy.value_eq]
    exact ⟨isNaN_zero, hnum, landing_nonneg (mul_nonneg (value_nonneg hx) hb)⟩
  · obtain ⟨d, hd, hn, hpos, -⟩ := hy
    change 0 ≤ ofForm (UnpackedFloat.mul .binary64 x.toModel.unpack y.toModel.unpack)
    rw [hinf, unpack_finite hd hpos, hn]
    exact infinity_nonneg

/-! ## Sums and differences -/

theorem add_form_infinity {u : UnpackedFloat}
    (h : u.isFinite = true ∨ u = .infinity .positive) :
    UnpackedFloat.add .binary64 (.infinity .positive) u = .infinity .positive ∧
      UnpackedFloat.add .binary64 u (.infinity .positive) = .infinity .positive := by
  rcases h with h | rfl
  · cases u with
    | zero | finite => exact ⟨rfl, rfl⟩
    | infinity | notANumber => cases h
  · exact ⟨rfl, rfl⟩

theorem zero_le_add {x y : Float} (hx : 0 ≤ x) (hy : 0 ≤ y) : 0 ≤ x + y := by
  have hadd : x + y = ofForm (UnpackedFloat.add .binary64 x.toModel.unpack y.toModel.unpack) := rfl
  have hcx := nonneg_cases hx
  have hcy := nonneg_cases hy
  rcases hcx with hfx | hix
  · rcases hcy with hfy | hiy
    · obtain ⟨hnum, hrank⟩ := rank_add hfx hfy
      rw [le_iff, hrank, rank_zero]
      exact ⟨isNaN_zero, hnum, landing_nonneg (add_nonneg (value_nonneg hx) (value_nonneg hy))⟩
    · rw [hadd, hiy, (add_form_infinity (nonneg_cases hx)).2]
      exact infinity_nonneg
  · rw [hadd, hix, (add_form_infinity hcy).1]
    exact infinity_nonneg

theorem zero_le_sub {x y : Float} (hx : x.isFinite = true) (hy : y.isFinite = true) (h : y ≤ x) :
    0 ≤ x - y := by
  obtain ⟨hnum, hrank⟩ := rank_sub hx hy
  rw [le_iff, hrank, rank_zero]
  exact ⟨isNaN_zero, hnum, landing_nonneg (sub_nonneg.2 ((le_iff_value hy hx).1 h))⟩

/-- The less is taken off, the more is left. -/
theorem sub_le_sub_of_le {x y z : Float} (hz : z.isFinite = true) (hx : x.isFinite = true)
    (hy : y.isFinite = true) (h : x ≤ y) : z - y ≤ z - x := by
  obtain ⟨hnx, hrx⟩ := rank_sub hz hx
  obtain ⟨hny, hry⟩ := rank_sub hz hy
  have hv := (le_iff_value hx hy).1 h
  rw [le_iff, hrx, hry]
  exact ⟨hny, hnx, landing_mono (by linarith)⟩

/-- A sum of finite scalars is finite if one of greater scalars is, whatever the signs. -/
theorem isFinite_add_of_abs_le {x y a b : Float} (hx : x.isFinite = true) (hy : y.isFinite = true)
    (hab : (a + b).isFinite = true) (hxa : |rank x| ≤ rank a) (hyb : |rank y| ≤ rank b) :
    (x + y).isFinite = true := by
  obtain ⟨ha, hb⟩ := isFinite_of_add hab
  obtain ⟨hnum, hrank⟩ := rank_add hx hy
  refine isFinite_of_abs_rank_le hnum hab ?_
  rw [hrank, (rank_add ha hb).2]
  exact abs_landing_le ((abs_add_le _ _).trans (add_le_add (abs_value_le hx ha hxa)
    (abs_value_le hy hb hyb)))

/-- The difference of two scalars from zero to a third is no greater than the third. -/
theorem abs_rank_sub_le {x y z : Float} (hz : z.isFinite = true) (hx : 0 ≤ x) (hxz : x ≤ z)
    (hy : 0 ≤ y) (hyz : y ≤ z) : (x - y).isNaN = false ∧ |rank (x - y)| ≤ rank z := by
  have hfx : x.isFinite = true := isFinite_of_nonneg_of_le hx hxz hz
  have hfy : y.isFinite = true := isFinite_of_nonneg_of_le hy hyz hz
  have hvx := (le_iff_value hfx hz).1 hxz
  have hvy := (le_iff_value hfy hz).1 hyz
  obtain ⟨hnum, hrank⟩ := rank_sub hfx hfy
  refine ⟨hnum, ?_⟩
  rw [hrank, ← landing_value hz]
  refine abs_landing_le (abs_le.2 ?_)
  constructor <;> linarith [value_nonneg hx, value_nonneg hy]

/-! ## Clamping -/

theorem isNaN_clamp {low high x : Float} (h : low ≤ high) : (clamp low high x).isNaN = x.isNaN := by
  cases hx : x.isNaN with
  | true => rw [clamp_of_isNaN hx, hx]
  | false => exact ((le_iff _ _).1 (clamp_mem h hx).1).2.1

/-- Bounds on both sides of zero do not change the sign of what is not below it. -/
theorem clamp_nonneg {low high x : Float} (hl : low ≤ 0) (hh : 0 ≤ high) (hx : 0 ≤ x) :
    0 ≤ clamp low high x := by
  obtain ⟨hnl, -, hrl⟩ := (le_iff low 0).1 hl
  obtain ⟨-, hnx, hrx⟩ := (le_iff 0 x).1 hx
  have hlow : ¬ x < low := by
    rw [lt_iff]
    rintro ⟨-, -, hr⟩
    omega
  rw [clamp, if_neg hlow]
  split
  · exact hh
  · exact hx

end Scalar
end BusRegen
