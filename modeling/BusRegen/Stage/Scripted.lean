import BusRegen.Stage
import BusRegen.Stage.CommandLog
/-!
# The scripted stage

A power stage without hardware: it reads the voltages of a script, one per reading, and after that
the last voltage again; it counts its calls, keeps a log of the commands it has accepted, and fails
on demand. A refused actuator call changes nothing.

`CrashingStage` is such a stage of which a certain reading, or every release, crashes.
-/
namespace BusRegen

/-- `MockPowerStage`: what it has been told to do, and the account of its calls. -/
structure ScriptedStage where
  inputVoltage : Float := 48.0
  script : List Float := []
  appliedCurrent : Float := 0
  motorReleased : Bool := false
  applyCalls : Nat := 0
  releaseCalls : Nat := 0
  reads : Nat := 0
  watchdogResets : Nat := 0
  sensorFails : Bool := false
  actuatorFails : Bool := false
  log : CommandLog := .empty 10000
  /-- How many commands were accepted. -/
  accepted : Nat := 0
  lastCommand : Option Command := none

/-- What can be set on a stage from outside, by `set_input_voltage`, `push_voltages`,
`fail_voltage_reads`, `fail_actuator`, `with_command_log_capacity` and `reset`. -/
inductive StageSetting where
  | voltage (v : Float)
  | script (vs : List Float)
  | sensorFails (on : Bool)
  | actuatorFails (on : Bool)
  | logCapacity (n : Nat)
  /-- All as new but for the capacity of the log. -/
  | reset

namespace ScriptedStage

def set (s : ScriptedStage) : StageSetting → ScriptedStage
  | .voltage v => { s with inputVoltage := v }
  | .script vs => { s with script := s.script ++ vs }
  | .sensorFails on => { s with sensorFails := on }
  | .actuatorFails on => { s with actuatorFails := on }
  | .logCapacity n => { s with log := s.log.resize n }
  | .reset => { log := .empty s.log.capacity }

/-- `was_current_applied`: whether the current is not zero, and was applied by a call. -/
def isCurrentApplied (s : ScriptedStage) : Bool := 0 < s.applyCalls && s.appliedCurrent != 0

/-- `MockState.record`: keeps the account of an accepted command. -/
def record (s : ScriptedStage) (c : Command) : ScriptedStage :=
  { s with accepted := s.accepted + 1, lastCommand := some c, log := s.log.push c }

/-- `read_bus_voltage`: a reading counts, whether it fails or not. -/
def readVoltage (s : ScriptedStage) : Reply Float × ScriptedStage :=
  let s := { s with reads := s.reads + 1 }
  if s.sensorFails then (.fault (.sensor "mock sensor failure"), s)
  else
    match s.script with
    | [] => (.done s.inputVoltage, s)
    | v :: rest => (.done v, { s with inputVoltage := v, script := rest })

def refusal : Reply Unit := .fault (.actuator "mock actuator failure")

/-- `apply_current`. Only a call that is not refused is counted and logged. -/
def applyCurrent (s : ScriptedStage) (current : Float) : Reply Unit × ScriptedStage :=
  if s.actuatorFails then (refusal, s)
  else
    let s := s.record (.apply current)
    (.done (), { s with
      appliedCurrent := current, motorReleased := false, applyCalls := s.applyCalls + 1 })

def release (s : ScriptedStage) : Reply Unit × ScriptedStage :=
  if s.actuatorFails then (refusal, s)
  else
    let s := s.record .release
    (.done (), { s with
      appliedCurrent := 0, motorReleased := true, releaseCalls := s.releaseCalls + 1 })

def resetWatchdog (s : ScriptedStage) : ScriptedStage :=
  { s with watchdogResets := s.watchdogResets + 1 }

/-- `n` releases in a row. -/
def releaseMany (s : ScriptedStage) : Nat → ScriptedStage
  | 0 => s
  | n + 1 => s.release.2.releaseMany n

instance : PowerStage ScriptedStage where
  readVoltage := readVoltage
  applyCurrent := applyCurrent
  release := release
  resetWatchdog := resetWatchdog

end ScriptedStage

structure CrashingStage where
  stage : ScriptedStage
  /-- The reading that crashes, by its number since the stage was new or reset. -/
  crashAtRead : Option Nat := none
  /-- Whether a release crashes before it reaches the stage. -/
  crashOnRelease : Bool := false

namespace CrashingStage

def set (s : CrashingStage) (x : StageSetting) : CrashingStage :=
  { s with stage := s.stage.set x }

/-- The reading is made and counted even if it crashes. -/
def readVoltage (s : CrashingStage) : Reply Float × CrashingStage :=
  let r := s.stage.readVoltage
  let s' := { s with stage := r.2 }
  if s.crashAtRead = some r.2.reads then (.crash, s') else (r.1, s')

def applyCurrent (s : CrashingStage) (current : Float) : Reply Unit × CrashingStage :=
  let r := s.stage.applyCurrent current
  (r.1, { s with stage := r.2 })

def release (s : CrashingStage) : Reply Unit × CrashingStage :=
  if s.crashOnRelease then (.crash, s)
  else
    let r := s.stage.release
    (r.1, { s with stage := r.2 })

def resetWatchdog (s : CrashingStage) : CrashingStage :=
  { s with stage := s.stage.resetWatchdog }

instance : PowerStage CrashingStage where
  readVoltage := readVoltage
  applyCurrent := applyCurrent
  release := release
  resetWatchdog := resetWatchdog

end CrashingStage
end BusRegen
