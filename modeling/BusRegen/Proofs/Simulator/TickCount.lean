import BusRegen.Proofs.Duration
import BusRegen.Proofs.Scalar.Whole
import BusRegen.Simulator
/-!
# How many ticks a run has

A longer duration has no fewer seconds as a scalar (`Duration.seconds_mono`). Below `2 ^ 53` whole
seconds the next whole one is a scalar and nothing is rounded beyond it; from there on the fraction
is lost altogether. So the quotient of a duration and a tick period grows with the duration. It is
always finite, as no period is shorter than a nanosecond and no duration much longer than `2 ^ 64`
seconds (`Simulator.isFinite_quotient`), and the number of ticks is its rounding
(`Simulator.ticksFor_eq`).
-/
namespace BusRegen

open Scalar

namespace Duration

/-- The rest of a second as a scalar, which is less than a second after rounding. -/
theorem rest_mem {n : Nat} (h : n < 10 ^ 9) :
    0 ≤ Float.ofNat n / 1e9 ∧ (Float.ofNat n / 1e9).isFinite = true ∧
      value (Float.ofNat n / 1e9) < 1 := by
  have hlast : Float.ofNat n / 1e9 ≤ Float.ofNat 999999999 / 1e9 :=
    div_mono hasValue_billion (ofNat_mono (by omega))
  have hnonneg : 0 ≤ Float.ofNat n / 1e9 :=
    Scalar.div_nonneg (ofNat_nonneg n) hasValue_billion
  have hfin := isFinite_of_nonneg_of_le hnonneg hlast (by decide +kernel)
  have hlt : Float.ofNat n / 1e9 < 1 := lt_of_le_of_lt hlast (by decide +kernel)
  rw [lt_iff_value hfin hasValue_one.isFinite, hasValue_one.value_eq] at hlt
  exact ⟨hnonneg, hfin, hlt⟩

theorem hasValue_large {w : Nat} (hlarge : 2 ^ 53 ≤ w) (hw : w < 2 ^ 64) :
    ∃ a ≥ (2 : ℚ) ^ 53, HasValue (Float.ofNat w) a := by
  have hleast : HasValue (Float.ofNat (2 ^ 53)) (2 ^ 53) :=
    hasValue_of_kind (m := 2 ^ 52) (e := 1) (by decide +kernel) (by norm_num) (by norm_num)
  obtain ⟨a, -, hv⟩ := hasValue_whole (by omega) hw (Nat.le_refl 64)
  have hle := (le_iff_value hleast.isFinite hv.isFinite).1 (ofNat_mono hlarge)
  rw [hleast.value_eq, hv.value_eq] at hle
  exact ⟨a, hle, hv⟩

/-- Whole seconds and a rest are no more than the next whole second. -/
theorem seconds_le_next {w w' n : Nat} (hn : n < 10 ^ 9) (hw : w < w') (hw' : w' < 2 ^ 64) :
    Float.ofNat w + Float.ofNat n / 1e9 ≤ Float.ofNat w' := by
  obtain ⟨hrest, hfin, hlt⟩ := rest_mem hn
  rcases Nat.lt_or_ge w (2 ^ 53) with hsmall | hlarge
  -- The whole seconds are exact, and rounding the sum does not lead past the next whole second.
  · obtain ⟨hwhole, hvalue⟩ := value_ofNat hsmall
    obtain ⟨hnum, hrank⟩ := rank_add hwhole hfin
    obtain ⟨hnum', hrank'⟩ := rank_ofNat w'
    have hnext : (w : ℚ) + 1 ≤ w' := by exact_mod_cast hw
    rw [le_iff, hrank, hrank', hvalue]
    exact ⟨hnum, hnum', landing_mono (by linarith)⟩
  -- The whole seconds may have been rounded up to the next, but then the rest is lost.
  · obtain ⟨a, ha, hv⟩ := hasValue_large hlarge (by omega)
    have hlost := rank_add_of_lt_one hv ha hfin (value_nonneg hrest) hlt
    refine le_trans ((le_iff _ _).2 ⟨?_, isNaN_of_isFinite hv.isFinite, hlost.le⟩)
      (ofNat_mono hw.le)
    exact (rank_add hv.isFinite hfin).1

theorem isFinite_whole (d : Duration) :
    (Float.ofNat (d.nanoseconds / 10 ^ 9)).isFinite = true := by
  have hlimit := d.lt_limit
  rcases Nat.eq_zero_or_pos (d.nanoseconds / 10 ^ 9) with h0 | h0
  · rw [h0]
    decide
  · obtain ⟨a, -, hv⟩ := hasValue_whole h0 (by omega) (Nat.le_refl 64)
    exact hv.isFinite

theorem seconds_mono {d d' : Duration} (h : d.nanoseconds ≤ d'.nanoseconds) :
    d.seconds ≤ d'.seconds := by
  have hrest := Nat.mod_lt d.nanoseconds (show 0 < 10 ^ 9 by norm_num)
  have hrest' := Nat.mod_lt d'.nanoseconds (show 0 < 10 ^ 9 by norm_num)
  obtain ⟨hnonneg, -, -⟩ := rest_mem hrest'
  have hlimit := d'.lt_limit
  unfold seconds
  rcases Nat.lt_or_eq_of_le (Nat.div_le_div_right (c := 10 ^ 9) h) with hlt | heq
  · refine le_trans (seconds_le_next hrest hlt (by omega)) ?_
    exact self_le_add d'.isFinite_whole hnonneg
  · have hle : Float.ofNat (d.nanoseconds % 10 ^ 9) / 1e9 ≤
        Float.ofNat (d'.nanoseconds % 10 ^ 9) / 1e9 :=
      div_mono hasValue_billion (ofNat_mono (by omega))
    obtain ⟨hnum, hnum'⟩ := isNaN_of_le hle
    rw [heq]
    have hfin := d'.isFinite_whole
    exact add_mono (le_refl (isNaN_of_isFinite hfin)) hle (isNaN_add hfin hnum)
      (isNaN_add hfin hnum')

theorem seconds_nonneg (d : Duration) : 0 ≤ d.seconds :=
  le_trans (by decide) (seconds_mono (d := zero) (Nat.zero_le d.nanoseconds))

end Duration

namespace Simulator

/-! ## The quotient -/

theorem quotient_nonneg (d : Duration) (p : TickPeriod) : 0 ≤ d.seconds / p.seconds := by
  obtain ⟨b, -, hb⟩ := p.hasValue
  exact Scalar.div_nonneg d.seconds_nonneg hb

/-- The longest duration has finitely many of the shortest periods. -/
theorem isFinite_quotient (d : Duration) (p : TickPeriod) :
    (d.seconds / p.seconds).isFinite = true := by
  let longest : Duration := ⟨2 ^ 64 * 10 ^ 9 - 1, by norm_num⟩
  let shortest : TickPeriod := ⟨⟨1, by norm_num⟩, rfl⟩
  have hlimit := d.lt_limit
  obtain ⟨b, -, hb⟩ := p.hasValue
  obtain ⟨b₁, -, hb₁⟩ := shortest.hasValue
  have hlongest : longest.seconds.isFinite = true := by decide +kernel
  have hperiod : b₁ ≤ b := by
    have hle : shortest.seconds ≤ p.seconds := Duration.seconds_mono p.nanoseconds_pos
    rwa [← hb.value_eq, ← hb₁.value_eq, ← le_iff_value hb₁.isFinite hb.isFinite]
  have hdivisor : longest.seconds / p.seconds ≤ longest.seconds / shortest.seconds := by
    have hnum := isNaN_of_isFinite hlongest
    have hpos : 0 < b₁ := leastUnit_pos.trans_le hb₁.leastUnit_le
    have hvalue := value_nonneg longest.seconds_nonneg
    rw [le_iff, rank_div hlongest hb, rank_div hlongest hb₁]
    exact ⟨isNaN_div hnum hb, isNaN_div hnum hb₁, landing_mono (by gcongr)⟩
  have hdividend : d.seconds / p.seconds ≤ longest.seconds / p.seconds :=
    div_mono hb (Duration.seconds_mono (Nat.le_sub_one_of_lt hlimit))
  exact isFinite_of_nonneg_of_le (quotient_nonneg d p) (le_trans hdividend hdivisor)
    (by decide +kernel)

theorem ticksFor_eq (d : Duration) (p : TickPeriod) :
    (ticksFor d p : ℤ) = round (value (d.seconds / p.seconds)) :=
  nearestNat_eq (isFinite_quotient d p) (quotient_nonneg d p)

theorem ticksFor_mono {d d' : Duration} (h : d.nanoseconds ≤ d'.nanoseconds) (p : TickPeriod) :
    ticksFor d p ≤ ticksFor d' p := by
  obtain ⟨b, -, hb⟩ := p.hasValue
  exact nearestNat_mono (quotient_nonneg d p) (div_mono hb (Duration.seconds_mono h))
    (isFinite_quotient d' p)

end Simulator
end BusRegen
