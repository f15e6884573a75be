import BusRegen.Simulator
import BusRegen.Proofs.Regulator.History
/-!
# The ticks of a simulation

`Simulator.drive` records the points of a run in reverse, after those it was given. Without these
(`drive_eq`) a run is a point and the rest of the run (`drive_succ`), so what is true of a whole run
follows by induction on the number of ticks: there is a point for each (`length_drive`), which is
that of a tick (`mem_drive`), the settings stay (`config_drive`), and the ticks are counted
(`ticks_drive`). A run of more ticks begins with the same points (`prefix_drive`).

`Reached` are the simulators that there are for some settings. What a run needs of the simulator is
the same for all of them (`Reached.settings`).
-/
namespace BusRegen

namespace Regulator

@[simp] theorem ticks_tick (r : Regulator) (v : Float) (dt : TickPeriod) :
    (r.tick v dt).2.telemetry.ticks = r.telemetry.ticks + 1 := rfl

end Regulator

namespace Simulator

variable (p : Profile) (dt : Float)

/-- The points already recorded come first and have no influence. -/
theorem drive_eq (r : Regulator) (seen : List TracePoint) (i n : Nat) :
    drive p dt r seen i n =
      (seen.reverse ++ (drive p dt r [] i n).1, (drive p dt r [] i n).2) := by
  induction n generalizing r seen i with
  | zero => simp [drive]
  | succ n ih =>
    unfold drive
    dsimp only
    rw [ih _ (_ :: seen), ih _ [_]]
    simp

/-- A run begins with a tick, and the rest is a run of the regulator that the tick leaves. -/
theorem drive_succ (r : Regulator) (i n : Nat) :
    drive p dt r [] i (n + 1) =
      let time := Float.ofNat i * dt
      let t := r.tick (p.voltageAt time) r.period
      (pointOf time t.1 :: (drive p dt t.2 [] (i + 1) n).1, (drive p dt t.2 [] (i + 1) n).2) := by
  conv_lhs => unfold drive
  dsimp only
  rw [drive_eq]
  rfl

theorem length_drive (r : Regulator) (i n : Nat) : (drive p dt r [] i n).1.length = n := by
  induction n generalizing r i with
  | zero => rfl
  | succ n ih => rw [drive_succ, List.length_cons, ih]

theorem config_drive (r : Regulator) (i n : Nat) :
    (drive p dt r [] i n).2.config = r.config := by
  induction n generalizing r i with
  | zero => rfl
  | succ n ih =>
    rw [drive_succ]
    exact ih _ _

theorem period_drive (r : Regulator) (i n : Nat) :
    (drive p dt r [] i n).2.period = r.period := by
  induction n generalizing r i with
  | zero => rfl
  | succ n ih =>
    rw [drive_succ]
    exact ih _ _

theorem ticks_drive (r : Regulator) (i n : Nat) :
    (drive p dt r [] i n).2.telemetry.ticks = r.telemetry.ticks + n := by
  induction n generalizing r i with
  | zero => rfl
  | succ n ih =>
    rw [drive_succ]
    dsimp only
    rw [ih, Regulator.ticks_tick]
    omega

/-- Every point is that of a tick with the settings and the period of the run. -/
theorem mem_drive {r : Regulator} {i n : Nat} {q : TracePoint}
    (h : q ∈ (drive p dt r [] i n).1) :
    ∃ g : Regulator, ∃ j, g.config = r.config ∧ i ≤ j ∧ j < i + n ∧
      q = pointOf (Float.ofNat j * dt)
        (g.tick (p.voltageAt (Float.ofNat j * dt)) r.period).1 := by
  induction n generalizing r i with
  | zero => exact absurd h List.not_mem_nil
  | succ n ih =>
    rw [drive_succ, List.mem_cons] at h
    rcases h with rfl | h
    · exact ⟨r, i, rfl, Nat.le_refl i, by omega, rfl⟩
    · obtain ⟨g, j, hg, hi, hj, hq⟩ := ih h
      exact ⟨g, j, hg, by omega, by omega, hq⟩

/-- More ticks do not change the points that there are. -/
theorem prefix_drive (r : Regulator) (i : Nat) {n m : Nat} (h : n ≤ m) :
    (drive p dt r [] i n).1 <+: (drive p dt r [] i m).1 := by
  induction n generalizing r i m with
  | zero => exact List.nil_prefix
  | succ n ih =>
    obtain ⟨m, rfl⟩ : ∃ k, m = k + 1 := ⟨m - 1, by omega⟩
    rw [drive_succ, drive_succ]
    exact List.cons_prefix_cons.2 ⟨rfl, ih _ _ (by omega)⟩

/-! ## Runs -/

variable {p}

/-- What a regulator of a simulator becomes before a run. -/
theorem run_eq {s : Simulator} {d : Duration} (h : ticksFor d s.regulator.period ≤ maxTicks) :
    s.run p d =
      let r := s.regulator.reset.resetTelemetry
      let ran := drive p r.period.seconds r [] 0 (ticksFor d s.regulator.period)
      .ok (⟨Trace.currentVersion, metadata r p, ran.1⟩, ⟨ran.2⟩) := by
  unfold run
  exact if_neg (Nat.not_lt.2 h)

theorem le_of_run {s : Simulator} {d : Duration} {x : Trace × Simulator}
    (h : s.run p d = .ok x) : ticksFor d s.regulator.period ≤ maxTicks := by
  unfold run at h
  dsimp only at h
  split at h
  · cases h
  · omega

theorem create_eq_ok {c : Config} (h : c.Valid) :
    create c = .ok ⟨{ config := c, period := ⟨c.tickPeriod, h.tickPeriod_nonzero⟩ }⟩ := by
  rw [create, Regulator.create_eq h]
  rfl

/-- The simulators of some settings: a new one, and one that has run. -/
inductive Reached (c : Config) : Simulator → Prop
  | created {s : Simulator} (h : create c = .ok s) : Reached c s
  | ran {s s' : Simulator} {p : Profile} {d : Duration} {t : Trace} (hs : Reached c s)
      (h : s.run p d = .ok (t, s')) : Reached c s'

theorem Reached.settings {c : Config} {s : Simulator} (h : Reached c s) :
    c.Valid ∧ s.regulator.config = c ∧ s.regulator.period.duration = c.tickPeriod := by
  induction h with
  | created h =>
    unfold create at h
    cases hr : Regulator.create c with
    | error e =>
      rw [hr] at h
      cases h
    | ok r =>
      rw [hr] at h
      cases h
      obtain ⟨hc, rfl⟩ := Regulator.valid_of_create hr
      exact ⟨hc, rfl, rfl⟩
  | ran _ h ih =>
    rw [run_eq (le_of_run h)] at h
    cases h
    obtain ⟨hc, hconfig, hperiod⟩ := ih
    exact ⟨hc, (config_drive ..).trans hconfig, by rw [period_drive]; exact hperiod⟩

end Simulator
end BusRegen
