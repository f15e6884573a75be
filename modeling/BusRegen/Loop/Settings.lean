import BusRegen.TickPeriod
import BusRegen.Decimal.Style
/-!
# Settings of the control loop

A tick counts as an overrun if it comes later than `overrunMultiplier` periods after the one before.
The multiplier has to be at least one, and the product must still be a duration.
-/
namespace BusRegen

/-- `LoopConfig`: how a loop is run. -/
structure LoopSettings where
  overrunMultiplier : Float := 2.0
  /-- After how many ticks a run ends by itself. -/
  maxIterations : Option Nat := none
  /-- Whether to wait for the next tick without giving up the processor. -/
  spin : Bool := false

/-- Why settings of a loop are refused (`DriverError.LoopConfig`). -/
inductive LoopError where
  | multiplier (value : Float)
  | noIterations
  | overflow (multiplier : Float) (period : TickPeriod)

namespace LoopError

def message : LoopError → String
  | multiplier x => s!"Invalid dt_clamp_multiplier: {showScalar x} (must be >= 1)"
  | noIterations => "max_iterations must be > 0"
  | overflow x p =>
    s!"dt_clamp_multiplier {showScalar x} overflows the tick period {p.duration.text}"

end LoopError

namespace LoopSettings

/-- `LoopConfig.validate`: what can be checked without the tick period. -/
def check (l : LoopSettings) : Except LoopError Unit :=
  if ¬ (l.overrunMultiplier.isFinite ∧ 1 ≤ l.overrunMultiplier) then
    .error (.multiplier l.overrunMultiplier)
  else if l.maxIterations = some 0 then .error .noIterations
  else .ok ()

/-- `LoopConfig.overrun_limit`: the time between two ticks beyond which the second is an overrun. -/
def overrunLimit (l : LoopSettings) (p : TickPeriod) : Except LoopError Duration :=
  match Duration.ofSeconds? (p.seconds * l.overrunMultiplier) with
  | some d => .ok d
  | none => .error (.overflow l.overrunMultiplier p)

end LoopSettings
end BusRegen
