import BusRegen.Regulator
/-!
# The published status

What a control loop shows to those who watch it: a copy of the regulator's last output and telemetry
as of the last tick, and what `markReleased` leaves of it when a run has ended.
-/
namespace BusRegen

/-- `LiveStatus`, as its readers see it. -/
structure Status where
  /-- The last reading, if it was a number. -/
  voltage : Option Float := none
  zone : Option Zone := none
  outputCurrent : Float := 0
  appliedCurrent : Float := 0
  telemetry : Telemetry := {}

namespace Status

/-- `LiveStatus.publish`: the status that a regulator gives. -/
def ofRegulator (r : Regulator) : Status :=
  match r.last with
  | some o =>
    { voltage := if o.voltage.isNaN then none else some o.voltage
      zone := some o.zone
      outputCurrent := o.current
      appliedCurrent := o.appliedCurrent
      telemetry := r.telemetry }
  | none => { telemetry := r.telemetry }

/-- `LiveStatus.mark_released`: the motor was let go, so there is no current and no claim to be
regulating. -/
def markReleased (s : Status) : Status :=
  { s with
    outputCurrent := 0, appliedCurrent := 0
    zone := if s.zone = some .regulating then none else s.zone }

def isRegulating (s : Status) : Bool := s.zone.any (·.isRegulating)

end Status
end BusRegen
