import Mathlib.Algebra.Order.Round
import BusRegen.Proofs.Scalar.Signs
/-!
# Whole numbers and scalars

Every natural number is rounded to the scalar nearest to it, so the scalars of natural numbers are
in their order (`ofNat_mono`). From `2 ^ 53` on scalars are at least two units apart, and what is
less than one is lost when it is added (`rank_add_of_lt_one`). The way back, `nearestNat`, is the
rounding of the exact value (`nearestNat_eq`), and so it keeps the order, too (`nearestNat_mono`).
-/
namespace BusRegen

theorem nearestEven_add_of_lt_half (m : Nat) {q : ℚ} (h0 : 0 ≤ q) (hq : 2 * q < 1) :
    nearestEven (m + q) = m := by
  have hfloor : ⌊(m : ℚ) + q⌋₊ = m := by
    rw [Nat.floor_eq_iff (by positivity)]
    constructor <;> linarith
  unfold nearestEven
  rw [hfloor]
  exact if_pos (by linarith)

/-- What is less than half a unit is lost. -/
theorem Dyadic.Canonical.place_add {d : Dyadic} (h : d.Canonical) (hfull : 2 ^ 52 ≤ d.mantissa)
    {q : ℚ} (h0 : 0 ≤ q) (hq : 2 * q < 2 ^ d.exponent) :
    place (d.magnitude + q) = place d.magnitude := by
  have hpos : (0 : ℚ) < 2 ^ d.exponent := by positivity
  have hlow : (2 : ℚ) ^ 52 ≤ d.mantissa := by exact_mod_cast hfull
  have hhigh : (d.mantissa : ℚ) + 1 ≤ 2 ^ 53 := by exact_mod_cast h.mantissa_lt
  have hunit : unitExponent (d.magnitude + q) = d.exponent := by
    have hlog : Int.log 2 (d.magnitude + q) = 52 + d.exponent := by
      refine log_eq ?_ ?_
      · rw [zpow_add₀ two_ne_zero, Dyadic.magnitude]
        nlinarith
      · rw [show (52 + d.exponent + 1 : Int) = 53 + d.exponent by ring, zpow_add₀ two_ne_zero,
          Dyadic.magnitude]
        nlinarith
    have hmin := h.exponent_ge
    rw [unitExponent, hlog]
    omega
  have hdiv : (d.magnitude + q) / 2 ^ d.exponent = d.mantissa + q / 2 ^ d.exponent := by
    rw [Dyadic.magnitude, add_div, mul_div_assoc, div_self hpos.ne', mul_one]
  have hdiv' : d.magnitude / 2 ^ d.exponent = d.mantissa := by
    rw [Dyadic.magnitude, mul_div_assoc, div_self hpos.ne', mul_one]
  have hsmall : 2 * (q / 2 ^ d.exponent) < 1 := by
    rwa [← mul_div_assoc, div_lt_one hpos]
  rw [place, place, hunit, h.unitExponent_magnitude (by omega), hdiv, hdiv', nearestEven_natCast,
    nearestEven_add_of_lt_half _ (by positivity) hsmall]

namespace Scalar

variable {x y : Float}

/-! ## Natural numbers as scalars -/

theorem rank_ofNat (n : Nat) :
    (Float.ofNat n).isNaN = false ∧ rank (Float.ofNat n) = landing n := by
  rcases Nat.eq_zero_or_pos n with rfl | h0
  · rw [Nat.cast_zero, landing_zero]
    decide
  · have h := rank_of_kind_nearest (by exact_mod_cast h0) (kind_ofNat h0)
    rwa [signed_false] at h

theorem ofNat_mono {m n : Nat} (h : m ≤ n) : Float.ofNat m ≤ Float.ofNat n := by
  obtain ⟨hm, hrm⟩ := rank_ofNat m
  obtain ⟨hn, hrn⟩ := rank_ofNat n
  rw [le_iff, hrm, hrn]
  exact ⟨hm, hn, landing_mono (by exact_mod_cast h)⟩

theorem ofNat_nonneg (n : Nat) : 0 ≤ Float.ofNat n :=
  le_trans (by decide) (ofNat_mono (Nat.zero_le n))

/-- A natural number of at most 53 digits is a scalar. -/
theorem value_ofNat {n : Nat} (h : n < 2 ^ 53) :
    (Float.ofNat n).isFinite = true ∧ value (Float.ofNat n) = n := by
  rcases Nat.eq_zero_or_pos n with rfl | h0
  · exact ⟨by decide, by rw [Nat.cast_zero]; exact value_zero false⟩
  · have hv := hasValue_ofNat h0 h
    exact ⟨hv.isFinite, hv.value_eq⟩

/-- Past `2 ^ 53` there is nothing between whole numbers, and not even all of these. -/
theorem rank_add_of_lt_one {a : ℚ} (hx : HasValue x a) (ha : 2 ^ 53 ≤ a) (hy : y.isFinite = true)
    (h0 : 0 ≤ value y) (h1 : value y < 1) : rank (x + y) = rank x := by
  rw [(rank_add hx.isFinite hy).2, hx.rank_eq.2, hx.value_eq]
  obtain ⟨d, hk, -, hpos, rfl⟩ := hx
  have hcanonical := canonical_of_kind hk
  -- The last of 53 digits stands for two or more.
  have hexponent : 1 ≤ d.exponent := by
    by_contra hle
    have hpow : (2 : ℚ) ^ d.exponent ≤ 1 := zpow_le_one_of_nonpos₀ one_le_two (by omega)
    have hlt : (d.mantissa : ℚ) < 2 ^ 53 := by exact_mod_cast hcanonical.mantissa_lt
    rw [Dyadic.magnitude] at ha
    nlinarith
  have hfull : 2 ^ 52 ≤ d.mantissa := hcanonical.full.resolve_right (by omega)
  have hunit : (2 : ℚ) ≤ 2 ^ d.exponent := by
    simpa using zpow_le_zpow_right₀ (one_le_two (α := ℚ)) hexponent
  have hmag := Dyadic.magnitude_pos hpos
  rw [landing_of_pos hmag, landing_of_pos (by linarith),
    hcanonical.place_add hfull h0 (by linarith)]

/-! ## Scalars as natural numbers -/

theorem roundHalfUp_eq (a : Nat) {b : Nat} (hb : 0 < b) :
    (roundHalfUp a b : ℤ) = round (a / b : ℚ) := by
  have hsum : (a / b : ℚ) + 1 / 2 = ((2 * a + b : ℤ) : ℚ) / ((2 * b : ℕ) : ℚ) := by
    have hb' : (b : ℚ) ≠ 0 := by exact_mod_cast hb.ne'
    push_cast
    field_simp
  rw [round_eq, hsum, Rat.floor_intCast_div_natCast, roundHalfUp]
  push_cast
  rfl

theorem nearestNat_eq (hx : x.isFinite = true) (h : 0 ≤ x) :
    (nearestNat x : ℤ) = round (value x) := by
  obtain ⟨d, hd⟩ := (isFinite_iff x).1 hx
  rw [value_of_nonneg h hd, nearestNat, hd]
  dsimp only
  split
  · next hn =>
    rw [Dyadic.magnitude, mantissa_of_negative h hd hn]
    simp
  · rw [Dyadic.magnitude_eq_fraction, roundHalfUp_eq _ d.fraction_den_pos]

theorem nearestNat_mono (h : 0 ≤ x) (hxy : x ≤ y) (hy : y.isFinite = true) :
    nearestNat x ≤ nearestNat y := by
  have hx := isFinite_of_nonneg_of_le h hxy hy
  have hle : round (value x) ≤ round (value y) := by
    rw [round_eq, round_eq]
    exact Int.floor_mono (by have := (le_iff_value hx hy).1 hxy; linarith)
  rw [← nearestNat_eq hx h, ← nearestNat_eq hy (le_trans h hxy)] at hle
  exact_mod_cast hle

end Scalar
end BusRegen
