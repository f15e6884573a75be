import BusRegen.Proofs.Scalar.Nearest
import BusRegen.Proofs.Simulator.Accounts
/-!
# The time base of a trace

A trace has its tick period in whole microseconds, and the nanoseconds that are left over are lost.
A run goes on with the period that the regulator has. So the two agree only where nothing is lost
(`time_base`), and a trace of a period below a microsecond has no time at all (`time_base_lost`).

Where nothing is lost there are two ways to the scalar. Up to a second both round one quotient.
From a second on the whole seconds are added to a rounded fraction, so that there are two roundings
in place of one; they make no difference to periods of whole seconds and simple fractions of these.
-/
namespace BusRegen

namespace Duration

open Scalar

/-- The seconds of a duration without what is left over from whole microseconds. -/
def cutSeconds (d : Duration) : Float := Float.ofNat (d.nanoseconds / 1000) / 1e6

variable {d : Duration}

/-- Below a second there is one quotient to round. -/
theorem kind_seconds (hpos : 0 < d.nanoseconds) (hlt : d.nanoseconds < 10 ^ 9) :
    kind d.seconds = nearest false (d.nanoseconds / (10 ^ 9 : Nat)) := by
  have hk : kind (Float.ofNat d.nanoseconds / 1e9) = nearest false (d.nanoseconds / 10 ^ 9) :=
    (hasValue_ofNat hpos (by omega)).kind_div hasValue_billion
  have hne : Float.ofNat d.nanoseconds / 1e9 ≠ Scalar.zero true := by
    intro h
    rw [h, kind_zero] at hk
    exact nearest_ne_zero (leastUnit_le_div hpos (by norm_num) (by norm_num)) _ _ hk.symm
  have hsec : d.seconds = Float.ofNat d.nanoseconds / 1e9 := by
    rw [seconds, Nat.div_eq_of_lt hlt, Nat.mod_eq_of_lt hlt]
    exact zero_add_eq hne false
  rw [hsec, hk, Nat.cast_pow, Nat.cast_ofNat]

theorem kind_cutSeconds (hmin : 1000 ≤ d.nanoseconds) (hmax : d.nanoseconds < 1000 * 2 ^ 53) :
    kind d.cutSeconds = nearest false ((d.nanoseconds / 1000 : Nat) / 10 ^ 6) :=
  (hasValue_ofNat (by omega) (by omega)).kind_div hasValue_million

theorem cutSeconds_of_lt (h : d.nanoseconds < 1000) : d.cutSeconds = Scalar.zero false := by
  rw [cutSeconds, Nat.div_eq_of_lt h]
  exact eq_of_kind_eq (by decide)

/-- Below a second nothing is lost exactly if there is nothing to lose: two fractions of a second
in nanoseconds are too far apart to be rounded to one scalar. -/
theorem cutSeconds_eq_iff (hpos : 0 < d.nanoseconds) (hlt : d.nanoseconds < 10 ^ 9) :
    d.cutSeconds = d.seconds ↔ 1000 ∣ d.nanoseconds := by
  have hsec := kind_seconds hpos hlt
  by_cases hmin : 1000 ≤ d.nanoseconds
  · have hcut := kind_cutSeconds hmin (by omega)
    have hfrac : ((d.nanoseconds / 1000 : Nat) / 10 ^ 6 : ℚ) =
        (1000 * (d.nanoseconds / 1000) : Nat) / (10 ^ 9 : Nat) := by
      push_cast
      ring
    rw [hfrac] at hcut
    constructor
    · intro h
      rw [h, hsec] at hcut
      exact ⟨_, eq_of_nearest_div_eq (by norm_num) hpos hlt (by omega) (by omega) hcut⟩
    · intro h
      rw [Nat.mul_div_cancel' h] at hcut
      exact eq_of_kind_eq (hcut.trans hsec.symm)
  · rw [cutSeconds_of_lt (by omega)]
    constructor
    · intro h
      rw [← h, kind_zero] at hsec
      exact absurd hsec.symm
        (nearest_ne_zero (leastUnit_le_div hpos (by norm_num) (by norm_num)) _ _)
    · intro h
      omega

/-- Whole seconds and a fraction that is a scalar are added without rounding. -/
theorem kind_seconds_of_sixtyFourths {k : Nat} (hd : d.nanoseconds = 15625000 * k) (hpos : 0 < k)
    (hlt : k < 2 ^ 53) : kind d.seconds = nearest false (k / 2 ^ 6) := by
  have hwhole : d.nanoseconds / 10 ^ 9 = k / 64 := by omega
  have hrest : d.nanoseconds % 10 ^ 9 = 15625000 * (k % 64) := by omega
  have hsum : (k / 2 ^ 6 : ℚ) = (k / 64 : Nat) + (k % 64 : Nat) / 2 ^ 6 := by
    have hk : (k : ℚ) = 64 * (k / 64 : Nat) + (k % 64 : Nat) := by
      exact_mod_cast (Nat.div_add_mod k 64).symm
    rw [hk]
    ring
  have hfrac (hr : 0 < k % 64) :
      kind (Float.ofNat (15625000 * (k % 64)) / 1e9) = nearest false ((k % 64 : Nat) / 2 ^ 6) := by
    rw [(hasValue_ofNat (by omega) (by omega)).kind_div hasValue_billion]
    congr 1
    push_cast
    ring
  rw [seconds, hwhole, hrest, hsum]
  rcases Nat.eq_zero_or_pos (k % 64) with hr | hr
  · have hw := hasValue_ofNat (by omega : 0 < k / 64) (by omega)
    have hzero : Float.ofNat (15625000 * (k % 64)) / 1e9 = Scalar.zero false := by
      rw [hr]
      exact eq_of_kind_eq (by decide)
    rw [hzero, add_zero_eq (hw.ne_zero true), hw.kind_eq, hr, Nat.cast_zero, zero_div, add_zero]
  · have hf := hasValue_of_nearest_scaled hr (by omega) (by norm_num) (hfrac hr)
    rcases Nat.eq_zero_or_pos (k / 64) with hw | hw
    · rw [hw, Nat.cast_zero, zero_add, ← hfrac hr]
      exact congrArg kind (zero_add_eq (hf.ne_zero true) false)
    · exact (hasValue_ofNat hw (by omega)).kind_add hf

theorem cutSeconds_of_sixtyFourths (hpos : 0 < d.nanoseconds)
    (hmax : d.nanoseconds < 1000 * 2 ^ 53) (h : 15625000 ∣ d.nanoseconds) :
    d.cutSeconds = d.seconds := by
  obtain ⟨k, hk⟩ := h
  have hcut := kind_cutSeconds (d := d) (by omega) hmax
  have hmicros : d.nanoseconds / 1000 = 15625 * k := by omega
  have hfrac : ((15625 * k : Nat) / 10 ^ 6 : ℚ) = k / 2 ^ 6 := by
    push_cast
    ring
  rw [hmicros, hfrac] at hcut
  exact eq_of_kind_eq (hcut.trans (kind_seconds_of_sixtyFourths hk (by omega) (by omega)).symm)

/-- So many periods have a length, unless a period is less than a microsecond. -/
theorem mul_cutSeconds_pos_iff {n : Nat} (hn : 0 < n) (hlt : n < 2 ^ 53)
    (hmax : d.nanoseconds < 1000 * 2 ^ 53) :
    0 < Float.ofNat n * d.cutSeconds ↔ 1000 ≤ d.nanoseconds := by
  have hcount := hasValue_ofNat hn hlt
  by_cases hmin : 1000 ≤ d.nanoseconds
  · have hq := kind_cutSeconds hmin hmax
    have hq0 := leastUnit_le_div (n := d.nanoseconds / 1000) (b := 10 ^ 6) (by omega) (by norm_num)
      (by norm_num)
    have hq34 : ((d.nanoseconds / 1000 : Nat) / 10 ^ 6 : ℚ) < 2 ^ (34 : Int) := by
      have hus : ((d.nanoseconds / 1000 : Nat) : ℚ) < 2 ^ 53 := by
        exact_mod_cast (by omega : d.nanoseconds / 1000 < 2 ^ 53)
      rw [div_lt_iff₀ (by norm_num)]
      exact hus.trans_le (by norm_num)
    have hpow {k : Int} (hk : k ≤ 1023) : (2 : ℚ) ^ k ≤ 2 ^ (1023 : Int) :=
      zpow_le_zpow_right₀ one_le_two hk
    have hcut := hasValue_of_nearest hq hq0 (hq34.trans_le (hpow (by omega)))
    have hle := magnitude_rounded_le (leastUnit_pos.trans_le hq0) hq34 (by omega) false
    generalize (rounded false ((d.nanoseconds / 1000 : Nat) / 10 ^ 6)).magnitude = m at hcut hle
    have hone : (1 : ℚ) ≤ n := by exact_mod_cast hn
    have hn53 : (n : ℚ) < 2 ^ (53 : Int) := by exact_mod_cast hlt
    have hmin' : leastUnit ≤ n * m :=
      hcut.leastUnit_le.trans (le_mul_of_one_le_left (leastUnit_pos.le.trans hcut.leastUnit_le) hone)
    have hmax' : (n : ℚ) * m < 2 ^ (1023 : Int) := by
      calc (n : ℚ) * m ≤ n * 2 ^ (34 : Int) := by gcongr
        _ < 2 ^ (53 : Int) * 2 ^ (34 : Int) := by gcongr
        _ = 2 ^ (87 : Int) := by rw [← zpow_add₀ two_ne_zero]; rfl
        _ ≤ 2 ^ (1023 : Int) := hpow (by omega)
    have hpos := (hasValue_of_nearest (hcount.kind_mul hcut) hmin' hmax').pos
    exact iff_of_true hpos hmin
  · rw [cutSeconds_of_lt (by omega), hcount.mul_zero]
    exact iff_of_false (by decide) hmin

end Duration

namespace Simulator

/-- What a trace says about the time of a run that went on with this period. -/
structure TimeBase (period : TickPeriod) (t : Trace) : Prop where
  total : (Summary.ofTrace t).totalTime = Float.ofNat t.points.length * t.dt
  /-- The period of the trace is the scalar nearest to that of the run, cut to microseconds. -/
  cut : 1000 ≤ period.duration.nanoseconds → period.duration.nanoseconds < 1000 * 2 ^ 53 →
    Scalar.kind t.dt = nearest false ((period.duration.nanoseconds / 1000 : Nat) / 10 ^ 6)
  exact_iff : period.duration.nanoseconds < 10 ^ 9 →
    (t.dt = period.seconds ↔ 1000 ∣ period.duration.nanoseconds)
  /-- From a second on, the period is exact if it is a whole number of sixty-fourths of a second. -/
  exact_of_dvd : 15625000 ∣ period.duration.nanoseconds →
    period.duration.nanoseconds < 1000 * 2 ^ 53 → t.dt = period.seconds
  total_pos_iff : period.duration.nanoseconds < 1000 * 2 ^ 53 → t.points ≠ [] →
    (0 < (Summary.ofTrace t).totalTime ↔ 1000 ≤ period.duration.nanoseconds)

theorem dt_of_metadata {t : Trace} {r : Regulator} {p : Profile} (ht : t.metadata = metadata r p)
    (hlt : r.period.duration.nanoseconds < 1000 * 2 ^ 53) :
    t.dt = r.period.duration.cutSeconds := by
  have hmicros : t.metadata.periodMicros.toNat = r.period.duration.nanoseconds / 1000 := by
    rw [ht]
    exact UInt64.toNat_ofNat_of_lt' (by simp only [UInt64.size]; omega)
  rw [Trace.dt, hmicros]
  rfl

theorem timeBase {t : Trace} {r : Regulator} {p : Profile} (ht : t.metadata = metadata r p)
    (hn : t.points.length ≤ maxTicks) : TimeBase r.period t := by
  have hpos := r.period.nanoseconds_pos
  refine ⟨rfl, fun hmin hmax => ?_, fun hlt => ?_, fun hdvd hmax => ?_, fun hmax hne => ?_⟩
  · rw [dt_of_metadata ht hmax]
    exact Duration.kind_cutSeconds hmin hmax
  · rw [dt_of_metadata ht (by omega)]
    exact Duration.cutSeconds_eq_iff hpos hlt
  · rw [dt_of_metadata ht hmax]
    exact Duration.cutSeconds_of_sixtyFourths hpos hmax hdvd
  · have hcount := List.length_pos_iff.2 hne
    change 0 < Float.ofNat t.points.length * t.dt ↔ _
    rw [dt_of_metadata ht hmax]
    exact Duration.mul_cutSeconds_pos_iff hcount (hn.trans_lt (by decide)) hmax

/-- **The time base of a simulation.** A simulator of valid settings, whatever it ran before, runs
every curve for every duration that is not too long. The trace has a point for each tick, and its
period is that of the run if this is a whole number of microseconds; below a second it is so in no
other case. The total time is so many periods, and is positive from a microsecond on. -/
theorem time_base {c : Config} {s : Simulator} (hs : Reached c s) (p : Profile) {d : Duration}
    (hd : ticksFor d s.regulator.period ≤ maxTicks) :
    ∃ t s', s.run p d = .ok (t, s') ∧ s.regulator.period.duration = c.tickPeriod ∧
      t.points.length = ticksFor d s.regulator.period ∧ TimeBase s.regulator.period t := by
  obtain ⟨-, -, hperiod⟩ := hs.settings
  have hlen : (drive p s.regulator.period.seconds s.regulator.reset.resetTelemetry [] 0
      (ticksFor d s.regulator.period)).1.length = ticksFor d s.regulator.period :=
    length_drive ..
  refine ⟨_, _, run_eq hd, hperiod, hlen, ?_⟩
  exact timeBase (r := s.regulator.reset.resetTelemetry) rfl (hlen.trans_le hd)

/-- Three ticks under the standard settings, with a period of a millisecond. -/
theorem time_base_standard :
    ∃ s t s', create {} = .ok s ∧ s.run (.constant 46) ⟨3000000, by decide⟩ = .ok (t, s') ∧
      t.points.length = 3 ∧ t.dt = s.regulator.period.seconds ∧
      (Summary.ofTrace t).totalTime = 3 * s.regulator.period.seconds ∧
      0 < (Summary.ofTrace t).totalTime := by
  have hs : create {} = .ok ⟨{ config := {}, period := ⟨({} : Config).tickPeriod, rfl⟩ }⟩ := rfl
  have hn : ticksFor ⟨3000000, by decide⟩ ⟨({} : Config).tickPeriod, rfl⟩ = 3 := by decide
  obtain ⟨t, s', hrun, -, hlen, hbase⟩ := time_base (d := ⟨3000000, by decide⟩) (.created hs)
    (.constant 46) (hn.trans_le (by decide))
  have hlen : t.points.length = 3 := hlen.trans hn
  have hdt := (hbase.exact_iff (by decide)).2 ⟨1000, rfl⟩
  have hne : t.points ≠ [] := List.length_pos_iff.1 (by omega)
  refine ⟨_, t, s', hs, hrun, hlen, hdt, ?_, (hbase.total_pos_iff (by decide) hne).2 (by decide)⟩
  rw [hbase.total, hlen, hdt]
  rfl

/-- Half of a microsecond is lost of each tick of 1.5 µs, and all of a nanosecond, so that three
ticks take no time. A period of 1.118 s is rounded twice by the run and once by the trace. -/
theorem time_base_lost :
    (∃ s t s', create { tickPeriod := ⟨1500, by decide⟩ } = .ok s ∧
      s.run (.constant 48) ⟨3000, by decide⟩ = .ok (t, s') ∧ t.points.length = 2 ∧
      t.dt ≠ s.regulator.period.seconds ∧
      (Summary.ofTrace t).totalTime ≠ 2 * s.regulator.period.seconds) ∧
    (∃ s t s', create { tickPeriod := ⟨1, by decide⟩ } = .ok s ∧
      s.run (.constant 48) ⟨3, by decide⟩ = .ok (t, s') ∧ t.points.length = 3 ∧
      ¬ 0 < (Summary.ofTrace t).totalTime) ∧
    ∃ s t s', create { tickPeriod := ⟨1118000000, by decide⟩ } = .ok s ∧
      s.run (.constant 48) ⟨1118000000, by decide⟩ = .ok (t, s') ∧ t.points.length = 1 ∧
      t.dt ≠ s.regulator.period.seconds := by
  refine ⟨⟨_, _, _, rfl, rfl, ?_⟩, ⟨_, _, _, rfl, rfl, ?_⟩, ⟨_, _, _, rfl, rfl, ?_⟩⟩
  · decide +kernel
  · decide +kernel
  · decide +kernel

end Simulator
end BusRegen
