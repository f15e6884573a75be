import BusRegen.Stage
/-!
# One complete control step

A step reads the bus voltage, lets the regulator tick on the reading, carries out its command and
resets the watchdog. If the reading fails, the regulator is reset and the motor released instead.
Every step makes one reading, one actuator call and one watchdog reset, unless a call crashes, which
ends the step there.
-/
namespace BusRegen

/-- What a complete step has seen: the output of the regulator, unless the reading failed, and the
faults of the two calls. -/
structure StepOutcome where
  output : Option Output := none
  sensorFault : Option Fault := none
  actuatorFault : Option Fault := none

namespace StepOutcome

def isOk (o : StepOutcome) : Bool := o.sensorFault.isNone && o.actuatorFault.isNone

end StepOutcome

/-- Regulator and stage after a step. There is no outcome if a call crashed. -/
structure Stepped (σ : Type) where
  regulator : Regulator
  stage : σ
  outcome : Option StepOutcome

namespace Regulator

variable {σ : Type} [PowerStage σ]

/-- The end of a `step`, after its actuator call. -/
def finishStep (r : Regulator) (call : Reply Unit × σ) (o : StepOutcome) : Stepped σ :=
  match call.1 with
  | .crash => ⟨r, call.2, none⟩
  | reply =>
    ⟨r, PowerStage.resetWatchdog call.2, some { o with actuatorFault := reply.fault? }⟩

/-- `step`: one control step. A reading that crashes leaves the regulator as it is. -/
def step (r : Regulator) (s : σ) (dt : TickPeriod) : Stepped σ :=
  match PowerStage.readVoltage s with
  | (.crash, s) => ⟨r, s, none⟩
  | (.fault f, s) => r.reset.finishStep (PowerStage.release s) { sensorFault := some f }
  | (.done v, s) =>
    let t := r.tick v dt
    t.2.finishStep (PowerStage.drive s t.1.command) { output := some t.1 }

end Regulator
end BusRegen
