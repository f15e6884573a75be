import BusRegen.ControlStep
/-!
# Metrics of the control loop

Counters over all runs of a loop. A tick is counted once it is complete, with the faults of its two
calls to the stage.
-/
namespace BusRegen

/-- `LoopMetrics`, as a snapshot shows them. -/
structure Metrics where
  ticks : Nat := 0
  /-- Ticks that came too late after the one before. -/
  overruns : Nat := 0
  sensorErrors : Nat := 0
  actuatorErrors : Nat := 0
  /-- The longest tick seen, in microseconds. -/
  maxTickMicros : Nat := 0
  deriving DecidableEq, Repr

namespace Metrics

def zero : Metrics := {}

/-- `overrun_rate`: overruns per hundred ticks; none without ticks. -/
def overrunRate (m : Metrics) : Float :=
  if m.ticks = 0 then 0 else Float.ofNat m.overruns / Float.ofNat m.ticks * 100

def hasFaults (m : Metrics) : Bool := 0 < m.sensorErrors || 0 < m.actuatorErrors

def countActuator (m : Metrics) (fault : Option Fault) : Metrics :=
  { m with actuatorErrors := m.actuatorErrors + fault.toList.length }

/-- `record_outcome`, with the count of the tick: takes in a complete step. -/
def record (m : Metrics) (o : StepOutcome) : Metrics :=
  { m.countActuator o.actuatorFault with
    ticks := m.ticks + 1
    sensorErrors := m.sensorErrors + o.sensorFault.toList.length }

/-- `record_tick_duration`, with the count of overruns: takes in how long a tick has taken, and
whether it has come too late. -/
def time (m : Metrics) (micros : Nat) (late : Bool) : Metrics :=
  { m with
    overruns := if late then m.overruns + 1 else m.overruns
    maxTickMicros := max m.maxTickMicros micros }

end Metrics
end BusRegen
