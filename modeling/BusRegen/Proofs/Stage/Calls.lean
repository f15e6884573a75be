import BusRegen.Stage.Scripted
/-!
# What the calls of a scripted stage do

A reading can go three ways: the sensor fails, the script has an entry for it, or it gives the
voltage that the stage falls back on (`Read`). Both actuator calls are one for a command: if the
actuator fails they leave the stage as it was, and else they leave the drive as the command asks for
and enter the command in the accounts (`drive_eq`, `accept`). What is proved of the calls of a
scripted stage comes from these two.
-/
namespace BusRegen

/-- The motor current that a command asks for. -/
def Command.current : Command → Float
  | .apply x => x
  | .release => 0

namespace ScriptedStage

/-- The three ways for a reading to go. -/
inductive Read (s : ScriptedStage) : Reply Float × ScriptedStage → Prop where
  | failed (f : Fault) (h : s.sensorFails = true) :
    Read s (.fault f, { s with reads := s.reads + 1 })
  | scripted {v : Float} {rest : List Float} (h : s.sensorFails = false)
    (hs : s.script = v :: rest) :
    Read s (.done v, { s with reads := s.reads + 1, inputVoltage := v, script := rest })
  | direct (h : s.sensorFails = false) (hs : s.script = []) :
    Read s (.done s.inputVoltage, { s with reads := s.reads + 1 })

theorem read_readVoltage (s : ScriptedStage) : Read s s.readVoltage := by
  unfold readVoltage
  dsimp only
  split
  · next h => exact .failed _ h
  · next h =>
    have hworks : s.sensorFails = false := Bool.eq_false_iff.2 h
    split
    · next hs => exact .direct hworks hs
    · next hs => exact .scripted hworks hs

/-- The stage with a command accepted. -/
def accept (s : ScriptedStage) (k : Command) : ScriptedStage :=
  { s.record k with
    appliedCurrent := k.current, motorReleased := k.isRelease
    applyCalls := s.applyCalls + if k.isRelease then 0 else 1
    releaseCalls := s.releaseCalls + if k.isRelease then 1 else 0 }

theorem drive_eq (s : ScriptedStage) (k : Command) :
    PowerStage.drive s k = if s.actuatorFails then (refusal, s) else (.done (), s.accept k) := by
  cases k <;> rfl

theorem drive_refused {s : ScriptedStage} (h : s.actuatorFails = true) (k : Command) :
    PowerStage.drive s k = (refusal, s) := by
  rw [drive_eq, if_pos h]

theorem drive_accepted {s : ScriptedStage} (h : s.actuatorFails = false) (k : Command) :
    PowerStage.drive s k = (.done (), s.accept k) := by
  rw [drive_eq, if_neg (Bool.eq_false_iff.1 h)]

end ScriptedStage
end BusRegen
