import BusRegen.Trace.Summary
import BusRegen.Proofs.Simulator.Drive
import BusRegen.Proofs.Regulator.Command
import BusRegen.Proofs.Scalar.Zero
/-!
# The two accounts of a simulation

The telemetry counts tick by tick, with the output and the period of the regulator and only where a
current was commanded. The summary adds up the points of the trace afterwards, with the currents
that were commanded and a period that was written in microseconds. `accounts_agree` says that the
two come to the same, to the last bit.

* The two periods are quotients of different numbers, but of one value, so they are rounded alike
  (`Duration.seconds_of_microseconds`).
* A tick that commands nothing adds a zero to the sum of the points, and a sum that is built up
  from zero passes over it (`energyOf_zero`, `Scalar.add_ne_negative_zero`).
* The outputs up to the deadband are in the telemetry only. They are not the largest one if any is
  beyond the deadband (`larger_step`).

So a tick keeps the accounts in agreement (`Agree.tick`), and a run does (`agree_drive`).
-/
namespace BusRegen

/-! ## The tick period as a scalar -/

namespace Duration

open Scalar

/-- A whole number of microseconds below a second comes to the same scalar by way of nanoseconds and
by way of microseconds, as both quotients are one number before they are rounded. -/
theorem seconds_of_microseconds {d : Duration} {us : Nat} (hd : d.nanoseconds = 1000 * us)
    (hpos : 0 < us) (hlt : us < 10 ^ 6) :
    d.seconds = Float.ofNat us / 1e6 ∧ d.seconds.isFinite = true := by
  have hns := hasValue_ofNat (n := 1000 * us) (by omega) (by omega)
  have hus := hasValue_ofNat hpos (by omega : us < 2 ^ 53)
  have hk : kind (Float.ofNat us / 1e6) = nearest false (us / 10 ^ 6) :=
    hus.kind_div hasValue_million
  have hk' : kind (Float.ofNat (1000 * us) / 1e9) = nearest false (us / 10 ^ 6) := by
    rw [hns.kind_div hasValue_billion, Nat.cast_mul]
    congr 1
    push_cast
    ring
  have heq : Float.ofNat (1000 * us) / 1e9 = Float.ofNat us / 1e6 :=
    eq_of_kind_eq (hk'.trans hk.symm)
  have hx : (0 : ℚ) < us / 10 ^ 6 := by positivity
  have hunit : leastUnit ≤ us / 10 ^ 6 := by
    have hone : (1 : ℚ) ≤ us := by exact_mod_cast hpos
    calc leastUnit ≤ 2 ^ (-20 : Int) := zpow_le_zpow_right₀ one_le_two (by omega)
      _ ≤ us / 10 ^ 6 := by rw [le_div_iff₀ (by positivity)]; norm_num; linarith
  have hone : (us / 10 ^ 6 : ℚ) < 2 ^ (1023 : Int) := by
    calc (us / 10 ^ 6 : ℚ) < 2 ^ (0 : Int) := by
          rw [div_lt_iff₀ (by positivity), zpow_zero, one_mul]
          exact_mod_cast hlt
      _ ≤ 2 ^ (1023 : Int) := zpow_le_zpow_right₀ one_le_two (by omega)
  have hne : Float.ofNat us / 1e6 ≠ Scalar.zero true := by
    intro h
    rw [h, kind_zero] at hk
    exact nearest_ne_zero hunit _ _ hk.symm
  have hsec : d.seconds = Float.ofNat us / 1e6 := by
    have hq : d.nanoseconds / 10 ^ 9 = 0 := by omega
    have hr : d.nanoseconds % 10 ^ 9 = 1000 * us := by omega
    rw [seconds, hq, hr, heq]
    exact zero_add_eq hne false
  refine ⟨hsec, (isFinite_iff _).2 ⟨rounded false (us / 10 ^ 6), ?_⟩⟩
  rw [hsec, hk, nearest_eq_finite hx hone]

end Duration

namespace Simulator

/-- The sums over some points and the telemetry after their ticks. -/
structure Agree (c : Config) (sum : Tally) (tel : Telemetry) : Prop where
  energy : sum.energy = tel.energy
  energy_ne : tel.energy ≠ Scalar.zero true
  largest_num : tel.maxCurrent.isNaN = false
  largest : sum.maxCurrent = if c.deadbandCurrent < tel.maxCurrent then tel.maxCurrent else 0

theorem agree_zero (c : Config) : Agree c {} .zero := by
  refine ⟨rfl, ?_, Scalar.isNaN_zero, (ite_self _).symm⟩
  intro h
  have hk := congrArg Scalar.kind h
  rw [Scalar.kind_zero] at hk
  exact absurd hk (by decide)

/-- A tick that commands nothing adds a zero to the sum. -/
theorem energyOf_zero {v dt : Float} (hv : v.isFinite = true) (hdt : dt.isFinite = true) :
    ∃ n, Telemetry.energyOf 0 v dt = Scalar.zero n := by
  have h3600 : Scalar.kind 3600 = .finite ⟨false, 7916483719987200, -41⟩ := by decide
  obtain ⟨n₁, h₁⟩ := Scalar.zero_mul_of_isFinite false hv
  obtain ⟨n₂, h₂⟩ := Scalar.zero_mul_of_isFinite n₁ hdt
  obtain ⟨n₃, h₃⟩ := Scalar.zero_div_of_kind n₂ h3600 (by norm_num)
  rw [Scalar.zero_false] at h₁
  exact ⟨n₃, by rw [Telemetry.energyOf, h₁, h₂, h₃]⟩

/-- The largest current of the points follows the largest output, if that is beyond the deadband. -/
theorem larger_step {b m : Float} (hb : 0 ≤ b) (hm : m.isNaN = false) (o : Float) :
    Scalar.larger (if b < m then m else 0) (if b < o then o else 0) =
      if b < (if m < o then o else m) then (if m < o then o else m) else 0 := by
  have hbn : b.isNaN = false := ((Scalar.le_iff 0 b).1 hb).2.1
  have hzero : Scalar.larger 0 0 = 0 := by decide
  by_cases ho : b < o
  · have hon : o.isNaN = false := ((Scalar.lt_iff b o).1 ho).2.1
    have hpos : 0 < o := Scalar.lt_of_le_of_lt hb ho
    rw [if_pos ho]
    by_cases hbm : b < m
    · have hmpos : 0 < m := Scalar.lt_of_le_of_lt hb hbm
      rw [if_pos hbm]
      by_cases hmo : m < o
      · rw [if_pos hmo, if_pos ho, Scalar.larger_of_le hon (Scalar.le_of_lt hmo)]
      · rw [if_neg hmo, if_pos hbm, Scalar.larger, hon, if_neg Bool.false_ne_true]
        split
        · rfl
        · next hom =>
          -- Neither is less than the other, and neither is a zero.
          have h₁ := (Scalar.le_iff o m).1 ((Scalar.not_lt_iff hm hon).1 hmo)
          have h₂ := (Scalar.le_iff m o).1 ((Scalar.not_lt_iff hon hm).1 hom)
          have h₃ := (Scalar.lt_iff 0 o).1 hpos
          rw [Scalar.rank_zero] at h₃
          exact Scalar.eq_of_rank_eq hon hm (by omega) (by omega)
    · have hmo : m < o := Scalar.lt_of_le_of_lt ((Scalar.not_lt_iff hbn hm).1 hbm) ho
      rw [if_neg hbm, if_pos hmo, if_pos ho, Scalar.larger_of_le hon (Scalar.le_of_lt hpos)]
  · rw [if_neg ho]
    by_cases hmo : m < o
    · have hon : o.isNaN = false := ((Scalar.lt_iff m o).1 hmo).2.1
      have hbm : ¬ b < m := fun h => ho (Scalar.lt_of_le_of_lt (Scalar.le_of_lt h) hmo)
      rw [if_neg hbm, if_pos hmo, if_neg ho, hzero]
    · rw [if_neg hmo]
      by_cases hbm : b < m
      · have hmpos : 0 < m := Scalar.lt_of_le_of_lt hb hbm
        rw [if_pos hbm, Scalar.larger, Scalar.isNaN_zero, if_neg Bool.false_ne_true, if_pos hmpos]
      · rw [if_neg hbm, hzero]

/-- A tick keeps the two accounts in agreement. -/
theorem Agree.tick {r : Regulator} {sum : Tally} (h : Agree r.config sum r.telemetry)
    (hc : r.config.Valid) {v : Float} (hv : v.isFinite = true) {dt : TickPeriod}
    (hdt : dt.seconds.isFinite = true) (time : Float) :
    Agree r.config (sum.add dt.seconds (pointOf time (r.tick v dt).1))
      (r.tick v dt).2.telemetry := by
  have hcases := Regulator.tick_cases hc v dt
  have hvolt := Regulator.voltage_tick r v dt
  rw [Regulator.telemetry_tick]
  generalize (r.tick v dt).1 = o at hcases hvolt
  have hcur : o.appliedCurrent = if r.config.deadbandCurrent < o.current then o.current else 0 := by
    rcases hcases with ⟨hd, hi, -⟩ | ⟨hd, hi, -⟩
    · rw [if_pos hd, hi]
    · rw [if_neg hd, hi]
  refine ⟨?_, ?_, ?_, ?_⟩
  · change sum.energy + Telemetry.energyOf o.appliedCurrent o.voltage dt.seconds = _
    rw [hvolt, h.energy]
    rcases hcases with ⟨-, hi, hk⟩ | ⟨-, hi, hk⟩
    · rw [hi, hk]
      rfl
    · obtain ⟨n, hn⟩ := energyOf_zero hv hdt
      rw [hi, hk, hn, Scalar.add_zero_eq h.energy_ne]
      rfl
  · change (if (!o.command.isRelease) = true then _ else _) ≠ _
    split
    · exact Scalar.add_ne_negative_zero h.energy_ne _
    · exact h.energy_ne
  · change Float.isNaN (if r.telemetry.maxCurrent < o.current then _ else _) = _
    split
    · next hlt => exact ((Scalar.lt_iff _ _).1 hlt).2.1
    · exact h.largest_num
  · change Scalar.larger sum.maxCurrent o.appliedCurrent = _
    rw [hcur, h.largest, larger_step hc.deadbandCurrent_nonneg h.largest_num]
    rfl

/-- The number of ticks of the regulating zone, from number `i` on. -/
def regulatingTicks (p : Profile) (c : Config) (dt : Float) (i n : Nat) : Nat :=
  (List.range' i n).countP fun j =>
    (Zone.classify (p.voltageAt (Float.ofNat j * dt)) c).isRegulating

theorem regulatingTicks_succ (p : Profile) (c : Config) (dt : Float) (i n : Nat) :
    regulatingTicks p c dt i (n + 1) =
      (if (Zone.classify (p.voltageAt (Float.ofNat i * dt)) c).isRegulating then 1 else 0) +
        regulatingTicks p c dt (i + 1) n := by
  rw [regulatingTicks, List.range'_succ, List.countP_cons, Nat.add_comm]
  rfl

theorem agree_drive {p : Profile} {r : Regulator} {sum : Tally}
    (h : Agree r.config sum r.telemetry) (hc : r.config.Valid) {dt : Float}
    (hdt : dt.isFinite = true) (hr : r.period.seconds = dt) {i n : Nat}
    (hv : ∀ j, i ≤ j → j < i + n → (p.voltageAt (Float.ofNat j * dt)).isFinite = true) :
    Agree r.config ((drive p dt r [] i n).1.foldl (Tally.add dt) sum)
      (drive p dt r [] i n).2.telemetry := by
  induction n generalizing r sum i with
  | zero => exact h
  | succ n ih =>
    have hvi := hv i (Nat.le_refl i) (by omega)
    have hfin : r.period.seconds.isFinite = true := by rwa [hr]
    have htick := h.tick hc hvi hfin (Float.ofNat i * dt)
    rw [hr] at htick
    rw [drive_succ]
    exact ih (r := (r.tick (p.voltageAt (Float.ofNat i * dt)) r.period).2) htick hc hr
      fun j hj hjn => hv j (by omega) (by omega)

theorem active_drive (p : Profile) (r : Regulator) (sum : Tally) (dt : Float) (i n : Nat) :
    ((drive p dt r [] i n).1.foldl (Tally.add dt) sum).active =
      sum.active + regulatingTicks p r.config dt i n := by
  induction n generalizing r sum i with
  | zero => rfl
  | succ n ih =>
    rw [drive_succ]
    dsimp only
    rw [List.foldl_cons, ih, regulatingTicks_succ, Regulator.config_tick]
    simp only [Tally.add, pointOf, Output.isRegulating, Regulator.zone_tick]
    split <;> omega

/-- The tick period of a trace is that of the regulator. -/
theorem dt_eq {t : Trace} {r : Regulator} {p : Profile} (ht : t.metadata = metadata r p) {us : Nat}
    (hus : r.period.duration.nanoseconds = 1000 * us) (hlt : us < 10 ^ 6) :
    t.dt = r.period.seconds ∧ t.dt.isFinite = true := by
  have hpos : 0 < us := by
    have hperiod := r.period.nanoseconds_pos
    omega
  have hmicros : t.metadata.periodMicros.toNat = us := by
    rw [ht]
    change (UInt64.ofNat (r.period.duration.nanoseconds / 1000)).toNat = us
    rw [hus, Nat.mul_div_cancel_left us (by decide)]
    exact UInt64.toNat_ofNat_of_lt' (hlt.trans (by decide))
  obtain ⟨hsec, hfin⟩ := Duration.seconds_of_microseconds hus hpos hlt
  have hdt : t.dt = r.period.seconds := by
    rw [Trace.dt, hmicros]
    exact hsec.symm
  exact ⟨hdt, hdt ▸ hfin⟩

/-- The summary of a trace says the same as a telemetry, with so many ticks of the regulating zone.
An output up to the deadband is no current, so it counts for the telemetry only. -/
structure SameAccount (c : Config) (regulating : Nat) (t : Trace) (tel : Telemetry) : Prop where
  samples : (Summary.ofTrace t).samples = tel.ticks
  energy : (Summary.ofTrace t).energy = tel.energy
  maxCurrent : (Summary.ofTrace t).maxCurrent =
    if c.deadbandCurrent < tel.maxCurrent then tel.maxCurrent else 0
  activeTime : (Summary.ofTrace t).activeTime = Float.ofNat regulating * t.dt

theorem sameAccount_drive {p : Profile} {r : Regulator} {t : Trace} {us n : Nat}
    (hc : r.config.Valid) (htel : r.telemetry = .zero)
    (hus : r.period.duration.nanoseconds = 1000 * us) (hlt : us < 10 ^ 6)
    (hv : ∀ i < n, (p.voltageAt (Float.ofNat i * r.period.seconds)).isFinite = true)
    (hmeta : t.metadata = metadata r p)
    (hpoints : t.points = (drive p r.period.seconds r [] 0 n).1) :
    SameAccount r.config (regulatingTicks p r.config r.period.seconds 0 n) t
      (drive p r.period.seconds r [] 0 n).2.telemetry := by
  obtain ⟨hdt, hfin⟩ := dt_eq hmeta hus hlt
  have hstart : Agree r.config {} r.telemetry := htel ▸ agree_zero r.config
  have hagree := agree_drive hstart hc (hdt ▸ hfin) rfl (i := 0) (n := n)
    fun j _ hj => hv j (by omega)
  rw [← hpoints, ← hdt] at hagree
  refine ⟨?_, ?_, ?_, ?_⟩
  · rw [ticks_drive, htel]
    change t.points.length = 0 + n
    rw [hpoints, length_drive, Nat.zero_add]
  · rw [← hdt]
    exact hagree.energy
  · rw [← hdt]
    exact hagree.largest
  · have hactive := active_drive p r {} r.period.seconds 0 n
    rw [← hpoints, ← hdt, Nat.zero_add] at hactive
    rw [← hdt, ← hactive]
    rfl

/-- **The summary of a simulation agrees with the telemetry.** A simulator of valid settings whose
tick period is a whole number of microseconds below a second, and whatever it ran before, runs every
curve for every duration that is not too long; if the voltages at the ticks are finite, the summary
of the trace and the telemetry are the same account. -/
theorem accounts_agree {c : Config} {s : Simulator} (hs : Reached c s) {us : Nat}
    (hus : c.tickPeriod.nanoseconds = 1000 * us) (hlt : us < 10 ^ 6) (p : Profile) {d : Duration}
    (hd : ticksFor d s.regulator.period ≤ maxTicks)
    (hv : ∀ i < ticksFor d s.regulator.period,
      (p.voltageAt (Float.ofNat i * c.tickPeriod.seconds)).isFinite = true) :
    ∃ t s', s.run p d = .ok (t, s') ∧
      SameAccount c
        (regulatingTicks p c c.tickPeriod.seconds 0 (ticksFor d s.regulator.period)) t
        s'.regulator.telemetry := by
  obtain ⟨hc, rfl, hperiod⟩ := hs.settings
  have hseconds : s.regulator.period.seconds = s.regulator.config.tickPeriod.seconds :=
    congrArg Duration.seconds hperiod
  rw [← hseconds] at hv ⊢
  refine ⟨_, _, run_eq hd, ?_⟩
  refine sameAccount_drive (p := p) (r := s.regulator.reset.resetTelemetry) hc rfl ?_ hlt hv rfl rfl
  rw [← hus, ← hperiod]
  rfl

/-- Three ticks under the standard settings, the second of which finds a drop. -/
theorem accounts_agree_drop :
    ∃ s t s', create {} = .ok s ∧
      s.run (.step ⟨48, 46, 0.001, 0.002⟩) ⟨3000000, by decide⟩ = .ok (t, s') ∧
      SameAccount {} 1 t s'.regulator.telemetry := by
  have hs : create {} = .ok ⟨{ config := {}, period := ⟨({} : Config).tickPeriod, rfl⟩ }⟩ := rfl
  have hn : ticksFor ⟨3000000, by decide⟩ ⟨({} : Config).tickPeriod, rfl⟩ = 3 := by decide
  have hone : regulatingTicks (.step ⟨48, 46, 0.001, 0.002⟩) {} ({} : Config).tickPeriod.seconds 0 3
      = 1 := by decide +kernel
  have hus : ({} : Config).tickPeriod.nanoseconds = 1000 * 1000 := rfl
  obtain ⟨t, s', hrun, h⟩ := accounts_agree (d := ⟨3000000, by decide⟩) (.created hs) hus
    (by norm_num) (.step ⟨48, 46, 0.001, 0.002⟩) (hn.trans_le (by decide)) (by
      intro i _
      simp only [Profile.voltageAt, Dip.voltageAt]
      split <;> decide)
  rw [hn, hone] at h
  exact ⟨_, t, s', hs, hrun, h⟩

end Simulator
end BusRegen
