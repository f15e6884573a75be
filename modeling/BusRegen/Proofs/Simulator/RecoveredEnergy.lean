import BusRegen.Proofs.Regulator.Telemetry
import BusRegen.Proofs.Simulator.Accounts
import BusRegen.Proofs.Simulator.Shape
import BusRegen.Proofs.Trace.Summary
/-!
# The energy in a summary

The summary adds `current * voltage * dt / 3600` for every point of a trace, also for those at which
nothing was driven. At such a point the current is zero. If the voltage is finite the product is a
zero, which a sum passes over, and the sum is that of the driven points
(`Reached.energy_of_finite`). But a zero times an infinity or a NaN is no number, and a single point
of this kind takes the number away from the whole sum (`Reached.isNaN_energy`), although the
regulator has released the motor there and its telemetry has counted nothing.
-/
namespace BusRegen

open Scalar

/-- A current of zero makes no product with a voltage that is not finite. -/
theorem Telemetry.isNaN_energyOf_zero {v : Float} (hv : v.isFinite = false) (dt : Float) :
    (energyOf 0 v dt).isNaN = true := by
  by_contra hnum
  rw [Bool.not_eq_true] at hnum
  have hproduct := (isNaN_of_mul (isNaN_of_div hnum).1).1
  rcases number_cases (isNaN_of_mul hproduct).2 with hfin | ⟨n, rfl⟩
  · rw [hfin] at hv
    cases hv
  · cases n <;> exact absurd hproduct (by decide)

/-! ## Sums over points -/

namespace Scalar

/-- A sum that is a number is one of numbers. -/
theorem number_of_sum {xs : List Float} {x : Float} (h : (xs.foldl (· + ·) x).isNaN = false) :
    x.isNaN = false ∧ ∀ y ∈ xs, y.isNaN = false := by
  induction xs generalizing x with
  | nil => exact ⟨h, fun y hy => absurd hy List.not_mem_nil⟩
  | cons y ys ih =>
    obtain ⟨hsum, hys⟩ := ih h
    obtain ⟨hx, hy⟩ := isNaN_of_add hsum
    exact ⟨hx, List.forall_mem_cons.2 ⟨hy, hys⟩⟩

theorem sum_nonneg {xs : List Float} {x : Float} (hx : 0 ≤ x) (hxs : ∀ y ∈ xs, 0 ≤ y) :
    0 ≤ xs.foldl (· + ·) x := by
  induction xs generalizing x with
  | nil => exact hx
  | cons y ys ih =>
    rw [List.forall_mem_cons] at hxs
    exact ih (zero_le_add hx hxs.1) hxs.2

end Scalar

namespace Trace

/-- The energy in Wh of a point that stands for `dt` seconds. -/
def energyAt (dt : Float) (q : TracePoint) : Float := Telemetry.energyOf q.current q.voltage dt

/-- The energy of the points at which a current was driven, from first to last. -/
def drivenEnergy (t : Trace) : Float :=
  ((t.points.filter (0 < ·.current)).map (energyAt t.dt)).foldl (· + ·) 0

theorem drivenEnergy_of_idle {t : Trace} (h : ∀ q ∈ t.points, ¬ 0 < q.current) :
    t.drivenEnergy = 0 := by
  have hnone : t.points.filter (0 < ·.current) = [] :=
    List.filter_eq_nil_iff.2 fun q hq => by simpa using h q hq
  rw [drivenEnergy, hnone]
  rfl

end Trace

namespace Simulator

variable {dt : Float} {qs : List TracePoint}

theorem energy_foldl (dt : Float) (qs : List TracePoint) (s : Tally) :
    (qs.foldl (Tally.add dt) s).energy = (qs.map (Trace.energyAt dt)).foldl (· + ·) s.energy := by
  induction qs generalizing s with
  | nil => rfl
  | cons q qs ih => exact ih _

/-- The points at which nothing was driven add zeros, and a sum passes over these. -/
theorem sum_driven (hdt : dt.isFinite = true) {x : Float} (hx : x ≠ Scalar.zero true)
    (hidle : ∀ q ∈ qs, ¬ 0 < q.current → q.current = 0)
    (hv : ∀ q ∈ qs, q.voltage.isFinite = true) :
    (qs.map (Trace.energyAt dt)).foldl (· + ·) x =
      ((qs.filter (0 < ·.current)).map (Trace.energyAt dt)).foldl (· + ·) x := by
  induction qs generalizing x with
  | nil => rfl
  | cons q qs ih =>
    rw [List.forall_mem_cons] at hidle hv
    by_cases hq : 0 < q.current
    · rw [List.filter_cons_of_pos (by simpa using hq)]
      exact ih (add_ne_negative_zero hx _) hidle.2 hv.2
    · obtain ⟨n, hn⟩ := energyOf_zero hv.1 hdt
      have hadd : x + Trace.energyAt dt q = x := by
        rw [Trace.energyAt, hidle.1 hq, hn, add_zero_eq hx]
      rw [List.filter_cons_of_neg (by simpa using hq), List.map_cons, List.foldl_cons, hadd]
      exact ih hx hidle.2 hv.2

/-! ## The points of a run -/

variable {c : Config} {r : Regulator} {p : Profile} {i n : Nat}

theorem voltages_drive (p : Profile) (dt : Float) (r : Regulator) (i n : Nat) :
    (drive p dt r [] i n).1.map (·.voltage) =
      (List.range' i n).map fun j => p.voltageAt (Float.ofNat j * dt) := by
  induction n generalizing r i with
  | zero => rfl
  | succ n ih =>
    rw [drive_succ, List.range'_succ, List.map_cons, List.map_cons, ih]
    exact congrArg (· :: _) (Regulator.voltage_tick _ _ _)

/-- Where nothing is driven the current is the positive zero. -/
theorem current_of_idle (h : r.config.Valid) {q : TracePoint} (hq : q ∈ (drive p dt r [] i n).1)
    (hidle : ¬ 0 < q.current) : q.current = 0 := by
  obtain ⟨g, j, hg, -, -, rfl⟩ := mem_drive p dt hq
  rw [← hg] at h
  rcases Regulator.tick_cases h (p.voltageAt (Float.ofNat j * dt)) r.period with
    ⟨hdead, happ, -⟩ | ⟨-, happ, -⟩
  · refine absurd ?_ hidle
    change 0 < Output.appliedCurrent _
    rw [happ]
    exact lt_of_le_of_lt h.deadbandCurrent_nonneg hdead
  · exact happ

theorem SoundPoint.voltage_of_driven {q : TracePoint} (hq : SoundPoint c q) (h : c.Valid)
    (hdriven : 0 < q.current) : q.voltage.isFinite = true ∧ c.minimumVoltage < q.voltage := by
  have hz := hq.active_iff.1 (hq.active_of_driven hdriven)
  rw [hq.zone, Zone.classify_eq_regulating_iff h] at hz
  exact ⟨hz.1, hz.2.1⟩

/-- A driven point recovers energy if no voltage in the regulating zone is below zero. -/
theorem SoundPoint.energyAt_nonneg {q : TracePoint} (hq : SoundPoint c q) (h : c.Valid)
    (hmin : 0 ≤ c.minimumVoltage) {b : ℚ} (hdt : HasValue dt b) (hdriven : 0 < q.current) :
    0 ≤ Trace.energyAt dt q := by
  obtain ⟨hfin, hlt⟩ := hq.voltage_of_driven h hdriven
  exact Telemetry.energyOf_nonneg hq.nonneg (hasValue_value hfin (lt_of_le_of_lt hmin hlt)) hdt

/-! ## The energy of a trace -/

variable {s s' : Simulator} {d : Duration} {t : Trace}

theorem energy_ofTrace (t : Trace) :
    (Summary.ofTrace t).energy = (t.points.map (Trace.energyAt t.dt)).foldl (· + ·) 0 :=
  energy_foldl t.dt t.points {}

theorem energy_drive (h : r.config.Valid) (htel : r.telemetry = .zero)
    (hdt : t.dt = r.period.seconds)
    (hpoints : t.points = (drive p r.period.seconds r [] 0 n).1)
    (hv : ∀ q ∈ t.points, q.voltage.isFinite = true) :
    (Summary.ofTrace t).energy = (drive p r.period.seconds r [] 0 n).2.telemetry.energy := by
  -- The voltages of the points are those of the curve at the ticks.
  have hvoltages (j : Nat) (hj : j < n) :
      (p.voltageAt (Float.ofNat j * r.period.seconds)).isFinite = true := by
    have hmem : p.voltageAt (Float.ofNat j * r.period.seconds) ∈ t.points.map (·.voltage) := by
      rw [hpoints, voltages_drive]
      exact List.mem_map_of_mem (List.mem_range'_1.2 ⟨Nat.zero_le j, by omega⟩)
    obtain ⟨q, hq, hvoltage⟩ := List.mem_map.1 hmem
    rw [← hvoltage]
    exact hv q hq
  have hstart : Agree r.config {} r.telemetry := htel ▸ agree_zero r.config
  have hagree := agree_drive hstart h (hdt ▸ t.isFinite_dt) rfl (i := 0) (n := n)
    fun j _ hj => hvoltages j (by omega)
  rw [← hagree.energy, ← hpoints, ← hdt]
  rfl

theorem Reached.current_of_idle (hs : Reached c s) (hrun : s.run p d = .ok (t, s')) :
    ∀ q ∈ t.points, ¬ 0 < q.current → q.current = 0 := by
  obtain ⟨hv, rfl, -⟩ := hs.settings
  rw [Simulator.run_eq (le_of_run hrun)] at hrun
  cases hrun
  exact fun q hq => Simulator.current_of_idle (r := s.regulator.reset.resetTelemetry) hv hq

theorem Reached.idle_of_voltage (hs : Reached c s) (hrun : s.run p d = .ok (t, s'))
    {q : TracePoint} (hq : q ∈ t.points) (hv : q.voltage.isFinite = false) : ¬ 0 < q.current := by
  intro hdriven
  rw [(((hs.shaped hrun).2.sound q hq).voltage_of_driven hs.settings.1 hdriven).1] at hv
  cases hv

/-- A released point without a finite voltage leaves no number. -/
theorem Reached.isNaN_energy (hs : Reached c s) (hrun : s.run p d = .ok (t, s')) {q : TracePoint}
    (hq : q ∈ t.points) (hv : q.voltage.isFinite = false) :
    (Summary.ofTrace t).energy.isNaN = true := by
  have hidle := hs.idle_of_voltage hrun hq hv
  have hnan : (Trace.energyAt t.dt q).isNaN = true := by
    rw [Trace.energyAt, hs.current_of_idle hrun q hq hidle]
    exact Telemetry.isNaN_energyOf_zero hv t.dt
  by_contra hnum
  rw [Bool.not_eq_true, energy_ofTrace] at hnum
  have hterm := (number_of_sum hnum).2 _ (List.mem_map_of_mem hq)
  rw [hnan] at hterm
  cases hterm

section
variable (hs : Reached c s) (hrun : s.run p d = .ok (t, s'))
  (hv : ∀ q ∈ t.points, q.voltage.isFinite = true)

include hs hrun

theorem Reached.drivenEnergy_nonneg (hmin : 0 ≤ c.minimumVoltage) (hdt : 0 < t.dt) :
    0 ≤ t.drivenEnergy := by
  have hvalue := hasValue_value t.isFinite_dt hdt
  refine sum_nonneg (by decide) fun y hy => ?_
  obtain ⟨q, hq, rfl⟩ := List.mem_map.1 hy
  obtain ⟨hmem, hdriven⟩ := List.mem_filter.1 hq
  exact ((hs.shaped hrun).2.sound q hmem).energyAt_nonneg hs.settings.1 hmin hvalue
    (of_decide_eq_true hdriven)

include hv

theorem Reached.energy_of_finite : (Summary.ofTrace t).energy = t.drivenEnergy := by
  have hzero : (0 : Float) ≠ Scalar.zero true := fun h => absurd (congrArg kind h) (by decide)
  rw [energy_ofTrace]
  exact sum_driven t.isFinite_dt hzero (hs.current_of_idle hrun) hv

/-- In one time base the summary has the energy that the telemetry has. -/
theorem Reached.energy_eq_telemetry (hdt : t.dt = c.tickPeriod.seconds) :
    (Summary.ofTrace t).energy = s'.regulator.telemetry.energy := by
  obtain ⟨hc, rfl, hperiod⟩ := hs.settings
  have hseconds : t.dt = s.regulator.period.seconds := by
    rw [hdt, ← hperiod]
    rfl
  rw [Simulator.run_eq (le_of_run hrun)] at hrun
  cases hrun
  exact energy_drive (r := s.regulator.reset.resetTelemetry) hc rfl hseconds rfl hv

end

/-- **The energy in a summary.** From valid settings a simulator can be built. Whatever it ran
before, if the voltages in the trace of a run are finite, only the points at which a current was
driven add to the energy in the summary. It is zero without them, it is the energy in the telemetry
if the trace has the period of the run, and it is a number if no voltage in the regulating zone is
below zero and the trace has a time. If there is a voltage that is not finite, though nothing was
driven there, the energy is no number. -/
theorem recovered_energy (c : Config) (hc : c.check = .ok ()) :
    ∃ new, create c = .ok new ∧ ∀ s, Reached c s → ∀ (p : Profile) (d : Duration) t s',
      s.run p d = .ok (t, s') →
      ((∀ q ∈ t.points, q.voltage.isFinite = true) →
        (Summary.ofTrace t).energy = t.drivenEnergy ∧
        ((∀ q ∈ t.points, ¬ 0 < q.current) → (Summary.ofTrace t).energy = 0) ∧
        (t.dt = c.tickPeriod.seconds →
          (Summary.ofTrace t).energy = s'.regulator.telemetry.energy) ∧
        (0 ≤ c.minimumVoltage → 0 < t.dt → 0 ≤ (Summary.ofTrace t).energy)) ∧
      ∀ q ∈ t.points, q.voltage.isFinite = false →
        ¬ 0 < q.current ∧ (Summary.ofTrace t).energy.isNaN = true := by
  have hv : c.Valid := (Config.check_eq_ok_iff c).1 hc
  refine ⟨_, create_eq_ok hv, fun s hs p d t s' hrun => ⟨fun hfin => ?_, fun q hq hvoltage => ?_⟩⟩
  · have henergy := hs.energy_of_finite hrun hfin
    refine ⟨henergy, fun hidle => ?_, hs.energy_eq_telemetry hrun hfin, fun hmin hdt => ?_⟩
    · rw [henergy, Trace.drivenEnergy_of_idle hidle]
    · rw [henergy]
      exact hs.drivenEnergy_nonneg hrun hmin hdt
  · exact ⟨hs.idle_of_voltage hrun hq hvoltage, hs.isNaN_energy hrun hq hvoltage⟩

/-- Two ticks in a drop of the voltage. -/
theorem recovered_energy_drop :
    ∃ new t s', create {} = .ok new ∧
      new.run (.constant 46) ⟨2000000, by decide⟩ = .ok (t, s') ∧
      (Summary.ofTrace t).energy = t.drivenEnergy ∧
      (Summary.ofTrace t).energy = s'.regulator.telemetry.energy ∧
      0 ≤ (Summary.ofTrace t).energy := by
  obtain ⟨new, hnew, h⟩ := recovered_energy {} rfl
  have hs : Reached {} new := .created hnew
  cases hnew
  have hticks : ticksFor ⟨2000000, by decide⟩ ⟨({} : Config).tickPeriod, rfl⟩ = 2 := by decide
  have hrun := Simulator.run_eq (p := .constant 46)
    (s := ⟨{ config := {}, period := ⟨({} : Config).tickPeriod, rfl⟩ }⟩)
    (hticks.trans_le (by decide))
  obtain ⟨hdriven, -, htelemetry, hnonneg⟩ := (h _ hs _ _ _ _ hrun).1 (by decide +kernel)
  exact ⟨_, _, _, rfl, hrun, hdriven, htelemetry (by decide +kernel),
    hnonneg (by decide) (by decide +kernel)⟩

/-- A sequence without holds has no voltage. The motor is never driven and the telemetry counts no
energy, but the energy in the summary is no number. -/
theorem energy_of_no_holds :
    ∃ new t s', create {} = .ok new ∧
      new.run (.sequence []) ⟨3000000, by decide⟩ = .ok (t, s') ∧
      (∀ q ∈ t.points, ¬ 0 < q.current) ∧ s'.regulator.telemetry.energy.isNaN = false ∧
      (Summary.ofTrace t).energy.isNaN = true := by
  have hticks : ticksFor ⟨3000000, by decide⟩ ⟨({} : Config).tickPeriod, rfl⟩ = 3 := by decide
  have hrun := run_eq (p := .sequence [])
    (s := ⟨{ config := {}, period := ⟨({} : Config).tickPeriod, rfl⟩ }⟩)
    (hticks.trans_le (by decide))
  exact ⟨_, _, _, rfl, hrun, by decide +kernel, by decide +kernel, by decide +kernel⟩

end Simulator
end BusRegen
