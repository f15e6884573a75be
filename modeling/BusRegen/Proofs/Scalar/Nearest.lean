import BusRegen.Proofs.Scalar.Zero
/-!
# How near the nearest scalar is

Rounding moves a magnitude by half a unit at most (`abs_magnitude_rounded_sub`). So magnitudes below
one that are rounded to the same scalar are less than `2 ^ (-53)` apart (`abs_sub_of_nearest_eq`),
and fractions of a small denominator have scalars of their own.

A natural number of at most 53 digits, divided by a power of two, is a scalar
(`hasValue_of_nearest_scaled`).
-/
namespace BusRegen

open Float.Model (UnpackedFloat)

theorem abs_nearestEven_sub {x : ℚ} (hx : 0 ≤ x) : |(nearestEven x : ℚ) - x| ≤ 1 / 2 := by
  have hle : (⌊x⌋₊ : ℚ) ≤ x := Nat.floor_le hx
  unfold nearestEven
  rw [abs_le]
  split
  · constructor <;> linarith
  · split
    · have hlt : x < ⌊x⌋₊ + 1 := Nat.lt_floor_add_one x
      push_cast
      constructor <;> linarith
    · rcases Nat.mod_two_eq_zero_or_one ⌊x⌋₊ with h | h <;> rw [h] <;> push_cast <;>
        constructor <;> linarith

theorem magnitude_rounded (n : Bool) (x : ℚ) :
    (rounded n x).magnitude = nearestEven (x / 2 ^ unitExponent x) * 2 ^ unitExponent x := by
  unfold rounded
  dsimp only
  split
  · rename_i h
    rw [h, Dyadic.magnitude, zpow_add_one₀ two_ne_zero]
    push_cast
    ring
  · rfl

/-- Rounding moves a magnitude by half a unit at most. -/
theorem abs_magnitude_rounded_sub {x : ℚ} (hx : 0 < x) (n : Bool) :
    |(rounded n x).magnitude - x| ≤ 2 ^ unitExponent x / 2 := by
  have hu : (0 : ℚ) < 2 ^ unitExponent x := by positivity
  have hscaled := abs_nearestEven_sub (div_pos hx hu).le
  have hsub : (rounded n x).magnitude - x =
      (nearestEven (x / 2 ^ unitExponent x) - x / 2 ^ unitExponent x) * 2 ^ unitExponent x := by
    rw [magnitude_rounded]
    field_simp
  rw [hsub, abs_mul, abs_of_pos hu]
  linarith [mul_le_mul_of_nonneg_right hscaled hu.le]

theorem unitExponent_le {x : ℚ} {k : Int} (hx : 0 < x) (hlt : x < 2 ^ k) (hk : -1021 ≤ k) :
    unitExponent x ≤ k - 53 := by
  have hlog : Int.log 2 x < k :=
    (Int.lt_zpow_iff_log_lt (by norm_num) hx).1 (by exact_mod_cast hlt)
  unfold unitExponent
  omega

/-- Rounding does not lead beyond a power of two. -/
theorem magnitude_rounded_le {x : ℚ} {k : Int} (hx : 0 < x) (hlt : x < 2 ^ k) (hk : -1021 ≤ k)
    (n : Bool) : (rounded n x).magnitude ≤ 2 ^ k := by
  have hu := unitExponent_le hx hlt hk
  have hm : (nearestEven (x / 2 ^ unitExponent x) : ℚ) ≤ 2 ^ 53 := by
    exact_mod_cast nearestEven_unit_le x
  rw [magnitude_rounded]
  calc (nearestEven (x / 2 ^ unitExponent x) : ℚ) * 2 ^ unitExponent x
      ≤ 2 ^ 53 * 2 ^ (k - 53) := by gcongr; norm_num
    _ = 2 ^ k := by rw [← zpow_natCast, ← zpow_add₀ two_ne_zero]; congr 1; omega

theorem nearest_of_lt_one {x : ℚ} (hx : 0 < x) (hx1 : x < 1) (n : Bool) :
    nearest n x = .finite (rounded n x) :=
  nearest_eq_finite hx (hx1.trans_le (one_le_zpow₀ one_le_two (by omega))) n

/-- Different fractions below one are not rounded to the same scalar, unless they are very near. -/
theorem abs_sub_of_nearest_eq {x y : ℚ} (hx : 0 < x) (hx1 : x < 1) (hy : 0 < y) (hy1 : y < 1)
    {n : Bool} (h : nearest n x = nearest n y) : |x - y| ≤ 2 ^ (-53 : Int) := by
  have hhalf {z : ℚ} (hz : 0 < z) (hz1 : z < 1) :
      |(rounded n z).magnitude - z| ≤ 2 ^ (-53 : Int) / 2 := by
    have hu : unitExponent z ≤ 0 - 53 := unitExponent_le hz (by rwa [zpow_zero]) (by omega)
    exact (abs_magnitude_rounded_sub hz n).trans (by gcongr; exacts [one_le_two, hu])
  rw [nearest_of_lt_one hx hx1, nearest_of_lt_one hy hy1] at h
  have hx' := hhalf hx hx1
  have hy' := hhalf hy hy1
  rw [ScalarKind.finite.inj h, abs_sub_comm] at hx'
  calc |x - y| ≤ |x - (rounded n y).magnitude| + |(rounded n y).magnitude - y| := abs_sub_le _ _ _
    _ ≤ 2 ^ (-53 : Int) / 2 + 2 ^ (-53 : Int) / 2 := add_le_add hx' hy'
    _ = 2 ^ (-53 : Int) := add_halves _

/-- Fractions below one of a denominator below `2 ^ 53` have scalars of their own. -/
theorem eq_of_nearest_div_eq {m n b : Nat} (hb : b < 2 ^ 53) (hm : 0 < m) (hmb : m < b)
    (hn : 0 < n) (hnb : n < b) {s : Bool} (h : nearest s (m / b) = nearest s (n / b)) : m = n := by
  have hb0 : (0 : ℚ) < b := by exact_mod_cast hm.trans hmb
  have hfrac {k : Nat} (hk : 0 < k) (hkb : k < b) : (0 : ℚ) < k / b ∧ (k / b : ℚ) < 1 :=
    ⟨div_pos (by exact_mod_cast hk) hb0, (div_lt_one hb0).2 (by exact_mod_cast hkb)⟩
  have hnear := abs_sub_of_nearest_eq (hfrac hm hmb).1 (hfrac hm hmb).2 (hfrac hn hnb).1
    (hfrac hn hnb).2 h
  by_contra hne
  have hone : (1 : ℚ) ≤ |(m : ℚ) - n| := by
    have : (1 : Int) ≤ |(m : Int) - n| := Int.one_le_abs (by omega)
    exact_mod_cast this
  have hb' : (b : ℚ) < 2 ^ 53 := by exact_mod_cast hb
  rw [← sub_div, abs_div, abs_of_pos hb0, div_le_iff₀ hb0] at hnear
  have hlt : (2 : ℚ) ^ (-53 : Int) * b < 1 := by
    calc (2 : ℚ) ^ (-53 : Int) * b < 2 ^ (-53 : Int) * 2 ^ 53 := by gcongr
      _ = 1 := by norm_num
  linarith

theorem leastUnit_le_div {n : Nat} (hn : 0 < n) {b : ℚ} (hb : 0 < b) (hle : b ≤ 2 ^ 30) :
    leastUnit ≤ n / b := by
  have hone : (1 : ℚ) ≤ n := by exact_mod_cast hn
  calc leastUnit ≤ 2 ^ (-30 : Int) := zpow_le_zpow_right₀ one_le_two (by omega)
    _ = 1 / 2 ^ 30 := by norm_num
    _ ≤ n / b := by gcongr

namespace Dyadic

theorem leastUnit_le_magnitude {d : Dyadic} (h : d.Canonical) (hm : 0 < d.mantissa) :
    leastUnit ≤ d.magnitude := by
  have hone : (1 : ℚ) ≤ d.mantissa := by exact_mod_cast hm
  calc leastUnit ≤ 2 ^ d.exponent := zpow_le_zpow_right₀ one_le_two h.exponent_ge
    _ ≤ d.magnitude := le_mul_of_one_le_left (by positivity) hone

end Dyadic

namespace Scalar

section
variable {x y : Float} {q a b : ℚ}

theorem HasValue.pos (h : HasValue x a) : 0 < x := by
  obtain ⟨d, hd, hn, hm, -⟩ := h
  have hc : d.Canonical := canonical_of_kind hd
  have hrank : 0 < rank x := by
    have := hc.exponent_ge
    rw [rank, hd, ScalarKind.rank, Dyadic.rank, hn, signed_false]
    omega
  rw [lt_iff, rank_zero]
  refine ⟨isNaN_zero, ?_, hrank⟩
  rw [isNaN_eq_false_iff, hd]
  exact ScalarKind.noConfusion

theorem HasValue.leastUnit_le (h : HasValue x a) : leastUnit ≤ a := by
  obtain ⟨d, hd, -, hm, rfl⟩ := h
  exact Dyadic.leastUnit_le_magnitude (canonical_of_kind hd) hm

theorem HasValue.kind_add (hx : HasValue x a) (hy : HasValue y b) :
    kind (x + y) = nearest false (a + b) := by
  obtain ⟨d, hd, hn, hm, rfl⟩ := hx
  obtain ⟨d', hd', hn', hm', rfl⟩ := hy
  have hpos := add_pos (Dyadic.magnitude_pos hm) (Dyadic.magnitude_pos hm')
  have hsum : d.value + d'.value = d.magnitude + d'.magnitude := by
    rw [Dyadic.value, Dyadic.value, hn, hn', if_neg Bool.false_ne_true, if_neg Bool.false_ne_true]
  rw [Scalar.kind_add hd hd' hm hm', hsum, if_neg hpos.ne', decide_eq_false hpos.not_gt,
    abs_of_pos hpos]

theorem HasValue.ne_zero (h : HasValue x a) (n : Bool) : x ≠ zero n := by
  obtain ⟨d, hd, -, hm, -⟩ := h
  exact ne_zero_of_digits hd hm n

theorem HasValue.mul_zero (h : HasValue x a) : x * zero false = zero false := by
  obtain ⟨d, hd, hn, hm, -⟩ := h
  change ofForm (UnpackedFloat.mul .binary64 x.toModel.unpack (zero false).toModel.unpack) = _
  rw [unpack_finite hd hm, unpack_zero, hn, ← ofForm_zero]
  rfl

theorem HasValue.zero_mul (h : HasValue x a) : zero false * x = zero false := by
  obtain ⟨d, hd, hn, hm, -⟩ := h
  change ofForm (UnpackedFloat.mul .binary64 (zero false).toModel.unpack x.toModel.unpack) = _
  rw [unpack_finite hd hm, unpack_zero, hn, ← ofForm_zero]
  rfl

theorem HasValue.zero_div (h : HasValue x a) : zero false / x = zero false := by
  obtain ⟨d, hd, hn, hm, -⟩ := h
  change ofForm (UnpackedFloat.div .binary64 (zero false).toModel.unpack x.toModel.unpack) = _
  rw [unpack_finite hd hm, unpack_zero, hn, ← ofForm_zero]
  rfl

/-- A magnitude that is neither too small nor too great is rounded to a positive scalar. -/
theorem hasValue_of_nearest (hk : kind x = nearest false q) (hmin : leastUnit ≤ q)
    (hmax : q < 2 ^ (1023 : Int)) : HasValue x (rounded false q).magnitude :=
  ⟨rounded false q, hk.trans (nearest_eq_finite (leastUnit_pos.trans_le hmin) hmax false),
    negative_rounded false q, rounded_pos hmin false, rfl⟩

/-- A natural number of at most 53 digits, divided by a power of two, is a scalar. -/
theorem hasValue_of_nearest_scaled {n k : Nat} (h0 : 0 < n) (hn : n < 2 ^ 53) (hk : k ≤ 1000)
    (hx : kind x = nearest false (n / 2 ^ k)) : HasValue x (n / 2 ^ k) := by
  obtain ⟨⟨negative, m, e⟩, ⟨hm, hge, hle, hfull⟩, rfl, hpos, hmag⟩ := exists_dyadic h0 hn
  have he : -53 < e := by
    by_contra hlt
    have hone : (1 : ℚ) ≤ n := by exact_mod_cast h0
    have hm' : (m : ℚ) < 2 ^ 53 := by exact_mod_cast hm
    have hlt1 : (m : ℚ) * 2 ^ e < 1 := by
      calc (m : ℚ) * 2 ^ e < 2 ^ 53 * 2 ^ e := by gcongr
        _ ≤ 2 ^ 53 * 2 ^ (-53 : Int) := by gcongr; exacts [one_le_two, by omega]
        _ = 1 := by norm_num
    exact absurd hone (not_le.2 (hmag ▸ hlt1))
  have hfull' : 2 ^ 52 ≤ m := hfull.resolve_right (by dsimp only; omega)
  have hc : Dyadic.Canonical ⟨false, m, e - k⟩ :=
    ⟨hm, by dsimp only; omega, by dsimp only at hle ⊢; omega, .inl hfull'⟩
  have hmag' : Dyadic.magnitude ⟨false, m, e - k⟩ = n / 2 ^ k := by
    rw [← hmag, Dyadic.magnitude, Dyadic.magnitude, zpow_sub₀ two_ne_zero, zpow_natCast,
      mul_div_assoc]
  refine ⟨⟨false, m, e - k⟩, ?_, rfl, hpos, hmag'⟩
  rw [hx, ← hmag']
  exact hc.nearest_magnitude hpos

end

end Scalar
end BusRegen
