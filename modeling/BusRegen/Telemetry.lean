import BusRegen.Scalar
/-!
# Telemetry of a regulator

What a regulator has done since its telemetry was last cleared: how many ticks, the largest output,
and the energy recovered, in Wh, by the ticks that drove a current.
-/
namespace BusRegen

structure Telemetry where
  ticks : Nat := 0
  maxCurrent : Float := 0
  energy : Float := 0

namespace Telemetry

def zero : Telemetry := {}

/-- The energy in Wh of `current` at `voltage` for `dt` seconds. -/
def energyOf (current voltage dt : Float) : Float := current * voltage * dt / 3600

/-- `Telemetry.record`: takes in one tick. What is no number leaves the largest as it is. -/
def record (t : Telemetry) (output voltage dt : Float) (applied : Bool) : Telemetry :=
  { ticks := t.ticks + 1
    maxCurrent := if t.maxCurrent < output then output else t.maxCurrent
    energy := if applied then t.energy + energyOf output voltage dt else t.energy }

end Telemetry
end BusRegen
