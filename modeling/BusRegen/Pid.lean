import BusRegen.Config
/-!
# The PID law

`Pid` is the memory of the control law: the integral of the error, kept within a limit on either
side, and the error of the tick before. `Pid.update` is one tick of it.
-/
namespace BusRegen

/-- `PidState`: the memory of the law. -/
structure Pid where
  accumulator : Float := 0
  previousError : Float := 0

/-- The error of a tick and the three terms that it gave. -/
structure PidTerms where
  error : Float := 0
  proportional : Float := 0
  integral : Float := 0
  derivative : Float := 0

namespace PidTerms

/-- `raw_output`: the sum of the terms, before any limit. -/
def raw (t : PidTerms) : Float := t.proportional + t.integral + t.derivative

end PidTerms

namespace Pid

def zero : Pid := {}

/-- Whether nothing is remembered, zeros of either sign. -/
def isZero (s : Pid) : Bool := s.accumulator == 0 && s.previousError == 0

/-- The integral after one tick. -/
def accumulate (s : Pid) (error dt limit : Float) : Float :=
  Scalar.clamp (-limit) limit (s.accumulator + error * dt)

/-- `PidState.update`: one tick. The integral first takes in the error, the derivative compares it
with the last. -/
def update (s : Pid) (error : Float) (dt : TickPeriod) (g : Gains) (limit : Float) :
    PidTerms × Pid :=
  let acc := s.accumulate error dt.seconds limit
  let terms : PidTerms :=
    { error
      proportional := g.kp * error
      integral := g.ki * acc
      derivative := g.kd * (error - s.previousError) / dt.seconds }
  (terms, { accumulator := acc, previousError := error })

/-- `PidState.update` under a limit that may be no bound: `none` unless `-limit ≤ limit`, since a
negative limit and a NaN leave no room for the integral. -/
def update? (s : Pid) (error : Float) (dt : TickPeriod) (g : Gains) (limit : Float) :
    Option (PidTerms × Pid) :=
  if -limit ≤ limit then some (s.update error dt g limit) else none

end Pid
end BusRegen
