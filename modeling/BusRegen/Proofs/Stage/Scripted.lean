import BusRegen.Proofs.Stage.Dependable
/-!
# What the calls of a scripted stage leave alone

The failure switch of the actuator is set from outside only: no call turns it on or off, so the
actuator fails at the end of a step if it did at its beginning. A release that is accepted leaves no
current, and no setting puts one on.

Readings and watchdog resets have nothing to do with the drive, and neither has an actuator call
that is refused (`Undriven`). A call that is accepted leaves the current and the release that it
asks for (`driven_drive`) and enters it in the accounts (`accept`); it does nothing else.
-/
namespace BusRegen

namespace ScriptedStage

theorem actuatorFails_readVoltage (s : ScriptedStage) :
    s.readVoltage.2.actuatorFails = s.actuatorFails := by
  have hread := s.read_readVoltage
  generalize s.readVoltage = r at hread ⊢
  cases hread <;> rfl

theorem actuatorFails_drive (s : ScriptedStage) (k : Command) :
    (PowerStage.drive s k).2.actuatorFails = s.actuatorFails := by
  rw [drive_eq]
  split <;> rfl

theorem kept_actuatorFails (b : Bool) : Kept fun s : ScriptedStage => s.actuatorFails = b where
  read h := (actuatorFails_readVoltage _).trans h
  apply h x := (actuatorFails_drive _ (.apply x)).trans h
  release h := (actuatorFails_drive _ .release).trans h
  watchdog h := h

theorem appliedCurrent_release {s : ScriptedStage} (h : s.actuatorFails = false) :
    s.release.2.appliedCurrent = 0 := by
  change (PowerStage.drive s .release).2.appliedCurrent = 0
  rw [drive_accepted h]
  rfl

theorem appliedCurrent_set {s : ScriptedStage} (h : s.appliedCurrent = 0) (x : StageSetting) :
    (s.set x).appliedCurrent = 0 := by
  cases x with
  | reset => rfl
  | voltage | script | sensorFails | actuatorFails | logCapacity => exact h

/-! ## The drive -/

/-- Nothing has been done to the drive, and no command accepted. -/
structure Undriven (s s' : ScriptedStage) : Prop where
  appliedCurrent : s'.appliedCurrent = s.appliedCurrent
  motorReleased : s'.motorReleased = s.motorReleased
  applyCalls : s'.applyCalls = s.applyCalls
  releaseCalls : s'.releaseCalls = s.releaseCalls
  log : s'.log = s.log
  accepted : s'.accepted = s.accepted
  lastCommand : s'.lastCommand = s.lastCommand

theorem undriven_readVoltage (s : ScriptedStage) : Undriven s s.readVoltage.2 := by
  have hread := s.read_readVoltage
  generalize s.readVoltage = r at hread ⊢
  cases hread <;> constructor <;> rfl

theorem Undriven.resetWatchdog {s s' : ScriptedStage} (h : Undriven s s') :
    Undriven s s'.resetWatchdog := { h with }

theorem fault_readVoltage (s : ScriptedStage) :
    s.readVoltage.1.fault?.isSome = s.sensorFails := by
  have hread := s.read_readVoltage
  generalize s.readVoltage = r at hread ⊢
  cases hread with
  | failed _ h | scripted h | direct h => rw [h]; rfl

/-- The drive is as a command asks for. -/
structure Driven (k : Command) (s : ScriptedStage) : Prop where
  appliedCurrent : s.appliedCurrent = k.current
  motorReleased : s.motorReleased = k.isRelease

theorem driven_drive {s : ScriptedStage} (h : s.actuatorFails = false) (k : Command) :
    (PowerStage.drive s k).1 = .done () ∧ Driven k (PowerStage.drive s k).2 := by
  rw [drive_accepted h]
  exact ⟨rfl, rfl, rfl⟩

theorem fault_drive (s : ScriptedStage) (k : Command) :
    (PowerStage.drive s k).1.fault?.isSome = s.actuatorFails := by
  cases h : s.actuatorFails with
  | true => rw [drive_refused h]; rfl
  | false => rw [(driven_drive h k).1]; rfl

end ScriptedStage
end BusRegen
