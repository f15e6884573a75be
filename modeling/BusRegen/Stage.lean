import BusRegen.Regulator
/-!
# Power stages

A power stage measures the bus voltage, drives the motor or lets go of it, and holds a watchdog that
has to be reset in every tick. Each call may fail with a `Fault` or crash, which ends its caller
without an answer; either way it may have changed the stage.
-/
namespace BusRegen

/-- `HalError`: why a call to a power stage failed. -/
inductive Fault where
  | sensor (text : String)
  | actuator (text : String)
  | disconnected
  deriving DecidableEq, Repr

namespace Fault

def message : Fault → String
  | sensor text => s!"Bus voltage sensor error: {text}"
  | actuator text => s!"Current actuator error: {text}"
  | disconnected => "Power stage disconnected"

def isSensor : Fault → Bool
  | sensor _ => true
  | _ => false

end Fault

/-- How a call to a power stage ended. -/
inductive Reply (α : Type) where
  | done (value : α)
  | fault (f : Fault)
  | crash

namespace Reply

def fault? : Reply α → Option Fault
  | fault f => some f
  | _ => none

end Reply

/-- The calls of a power stage (`read_bus_voltage`, `apply_current`, `release` and
`reset_watchdog`), each with the state of the stage after it. -/
class PowerStage (σ : Type) where
  readVoltage : σ → Reply Float × σ
  applyCurrent : σ → Float → Reply Unit × σ
  release : σ → Reply Unit × σ
  resetWatchdog : σ → σ

namespace PowerStage

/-- The actuator call that a command asks for. -/
def drive [PowerStage σ] (s : σ) : Command → Reply Unit × σ
  | .apply current => applyCurrent s current
  | .release => release s

end PowerStage
end BusRegen
