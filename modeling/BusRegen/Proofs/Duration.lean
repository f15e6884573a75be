import BusRegen.TickPeriod
import BusRegen.Proofs.Scalar.Monotone
/-!
# Durations as scalars

The seconds of a duration are the whole ones and the rest, each rounded, added and rounded again. At
least one of the two is not zero if the duration is not, so its scalar is a positive number, and not
much greater than the whole seconds (`Duration.hasValue_seconds`). This is so for every tick period
(`TickPeriod.hasValue`).

The way back is refused from `2 ^ 64` seconds on and nowhere before: scalars so great are whole
numbers, and the greatest below has room for all roundings (`Duration.ofSeconds?_isSome_iff`).
-/
namespace BusRegen

open Scalar

namespace Duration

variable {d : Duration}

/-- The whole seconds as a scalar. -/
theorem hasValue_whole {k n : Nat} (h0 : 0 < n) (hn : n < 2 ^ k) (hk : k ≤ 64) :
    ∃ a ≤ (2 : ℚ) ^ (k : Int), HasValue (Float.ofNat n) a := by
  have hone : (1 : ℚ) ≤ n := by exact_mod_cast h0
  have hlt : (n : ℚ) < 2 ^ (k : Int) := by exact_mod_cast hn
  have hmin := leastUnit_le_div (b := 1) h0 one_pos (by norm_num)
  rw [div_one] at hmin
  have hmax : (n : ℚ) < 2 ^ (1023 : Int) :=
    hlt.trans_le (zpow_le_zpow_right₀ one_le_two (by omega))
  exact ⟨_, magnitude_rounded_le (zero_lt_one.trans_le hone) hlt (by omega) false,
    hasValue_of_nearest (kind_ofNat h0) hmin hmax⟩

/-- The rest of a second as a scalar. -/
theorem hasValue_rest {n : Nat} (h0 : 0 < n) (hn : n < 10 ^ 9) :
    ∃ b ≤ (1 : ℚ), HasValue (Float.ofNat n / 1e9) b := by
  have hk : kind (Float.ofNat n / 1e9) = nearest false (n / 10 ^ 9) :=
    (hasValue_ofNat h0 (by omega)).kind_div hasValue_billion
  have hmin : leastUnit ≤ n / 10 ^ 9 := leastUnit_le_div h0 (by norm_num) (by norm_num)
  have hlt : (n / 10 ^ 9 : ℚ) < 2 ^ (0 : Int) := by
    rw [zpow_zero, div_lt_one (by norm_num)]
    exact_mod_cast hn
  have hmax : (n / 10 ^ 9 : ℚ) < 2 ^ (1023 : Int) :=
    hlt.trans_le (zpow_le_zpow_right₀ one_le_two (by omega))
  refine ⟨_, ?_, hasValue_of_nearest hk hmin hmax⟩
  simpa using magnitude_rounded_le (leastUnit_pos.trans_le hmin) hlt (by omega) false

theorem hasValue_seconds {k : Nat} (h0 : 0 < d.nanoseconds) (hd : d.nanoseconds / 10 ^ 9 < 2 ^ k)
    (hk : k ≤ 64) : ∃ q ≤ (2 : ℚ) ^ (k + 2 : Int), HasValue d.seconds q := by
  have hone : (1 : ℚ) ≤ 2 ^ (k : Int) := one_le_zpow₀ one_le_two (by omega)
  have hpow : (2 : ℚ) ^ (k + 2 : Int) = 4 * 2 ^ (k : Int) := by
    rw [zpow_add₀ two_ne_zero, mul_comm]
    norm_num
  have hlt : d.nanoseconds % 10 ^ 9 < 10 ^ 9 := Nat.mod_lt _ (by norm_num)
  rw [seconds]
  rcases Nat.eq_zero_or_pos (d.nanoseconds / 10 ^ 9) with hw | hw
  · obtain ⟨b, hb, hv⟩ := hasValue_rest (by omega) hlt
    rw [hw]
    refine ⟨b, by linarith, ?_⟩
    exact (zero_add_eq (hv.ne_zero true) false).symm ▸ hv
  · obtain ⟨a, ha, hv⟩ := hasValue_whole hw hd hk
    rcases Nat.eq_zero_or_pos (d.nanoseconds % 10 ^ 9) with hr | hr
    · have hzero : Float.ofNat (0 : Nat) / 1e9 = Scalar.zero false := eq_of_kind_eq (by decide)
      rw [hr, hzero, add_zero_eq (hv.ne_zero true)]
      exact ⟨a, by linarith, hv⟩
    · obtain ⟨b, hb, hv'⟩ := hasValue_rest hr hlt
      have hsum : leastUnit ≤ a + b := hv.leastUnit_le.trans
        (le_add_of_nonneg_right (leastUnit_pos.le.trans hv'.leastUnit_le))
      have hlt : a + b < 2 ^ (k + 2 : Int) := by linarith
      have hmax : a + b < 2 ^ (1023 : Int) :=
        hlt.trans_le (zpow_le_zpow_right₀ one_le_two (by omega))
      exact ⟨_, magnitude_rounded_le (leastUnit_pos.trans_le hsum) hlt (by omega) false,
        hasValue_of_nearest (hv.kind_add hv') hsum hmax⟩

/-! ## From scalars to durations -/

/-- Whole numbers of seconds are whole numbers of nanoseconds. Where there is a fraction the number
is so small that neither side is in question. -/
theorem nanoseconds_lt_iff {v : Dyadic} (h : v.Canonical) :
    roundHalfEven (v.fraction.1 * 10 ^ 9) v.fraction.2 < 2 ^ 64 * 10 ^ 9 ↔
      v.magnitude < 2 ^ 64 := by
  have hm := h.mantissa_lt
  rcases le_or_gt 0 v.exponent with he | he
  · have hfraction : v.fraction = (v.mantissa * 2 ^ v.exponent.toNat, 1) := if_pos he
    have hmag : v.magnitude = (v.mantissa * 2 ^ v.exponent.toNat : Nat) := by
      rw [Dyadic.magnitude, ← Int.toNat_of_nonneg he, zpow_natCast]
      push_cast
      rfl
    rw [hfraction, roundHalfEven_one, hmag]
    generalize v.mantissa * 2 ^ v.exponent.toNat = n
    have hcast : (n : ℚ) < 2 ^ 64 ↔ n < 2 ^ 64 := by exact_mod_cast Iff.rfl
    rw [hcast]
    dsimp only
    omega
  · have hfraction : v.fraction = (v.mantissa, 2 ^ (-v.exponent).toNat) := if_neg (not_le.2 he)
    have hmag : v.magnitude < 2 ^ 64 := by
      have hm' : (v.mantissa : ℚ) < 2 ^ 53 := by exact_mod_cast hm
      calc v.magnitude ≤ v.mantissa * 1 := by
            rw [Dyadic.magnitude]
            gcongr
            exact zpow_le_one_of_nonpos₀ one_le_two he.le
        _ < 2 ^ 64 := by linarith
    have hround :
        roundHalfEven (v.mantissa * 10 ^ 9) (2 ^ (-v.exponent).toNat) < 2 ^ 64 * 10 ^ 9 := by
      generalize hden : 2 ^ (-v.exponent).toNat = den
      have hpos : 0 < den := hden ▸ Nat.two_pow_pos _
      obtain ⟨hnear, -⟩ := roundHalfEven_near (v.mantissa * 10 ^ 9) den hpos
      by_contra hge
      have hmul := Nat.mul_le_mul_right den (not_lt.1 hge)
      omega
    rw [hfraction]
    exact iff_of_true hround hmag

/-- A number of seconds is a duration if it is less than `2 ^ 64`. -/
theorem ofSeconds?_isSome_iff {x : Float} (h0 : 0 ≤ x) :
    (∃ d, ofSeconds? x = some d) ↔ x < 18446744073709551616 := by
  have hlimit : HasValue 18446744073709551616 (2 ^ 64) :=
    hasValue_of_kind (m := 2 ^ 52) (e := 12) (by decide +kernel) (by norm_num) (by norm_num)
  have hnum : x.isNaN = false := ((le_iff 0 x).1 h0).2.1
  cases hk : kind x with
  | nan => exact absurd hk ((isNaN_eq_false_iff x).1 hnum)
  | infinite n =>
    have hnone : ofSeconds? x = none := by simp only [ofSeconds?, hk]
    rw [hnone]
    refine iff_of_false (by simp) fun hlt => ?_
    have hfinite := isFinite_of_mem (by decide) hlimit.isFinite h0 (le_of_lt hlt)
    obtain ⟨d, hd⟩ := (isFinite_iff x).1 hfinite
    rw [hk] at hd
    cases hd
  | finite v =>
    have hx : x.isFinite = true := (isFinite_iff x).2 ⟨v, hk⟩
    have hsign : (v.negative && v.mantissa != 0) = false := by
      cases hn : v.negative with
      | true => simp [mantissa_of_negative h0 hk hn]
      | false => rfl
    rw [lt_iff_value hx hlimit.isFinite, hlimit.value_eq, value_of_nonneg h0 hk,
      ← nanoseconds_lt_iff (canonical_of_kind hk)]
    simp [ofSeconds?, hk, hsign, ofNanoseconds?]

end Duration

namespace TickPeriod

theorem eq_of_duration {p q : TickPeriod} (h : p.duration = q.duration) : p = q := by
  cases p
  cases q
  cases h
  rfl

/-- The scalar of a tick period is a positive number. -/
theorem hasValue (p : TickPeriod) : ∃ q ≤ (2 : ℚ) ^ (66 : Int), HasValue p.seconds q := by
  have hlt := p.duration.lt_limit
  exact Duration.hasValue_seconds (k := 64) p.nanoseconds_pos (by omega) le_rfl

end TickPeriod
end BusRegen
