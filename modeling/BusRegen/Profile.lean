import BusRegen.Decimal.Fixed
/-!
# Voltage curves

A profile gives the bus voltage at every time; times are in seconds, rates in V/s. `voltageAt` is
the curve, `naturalDuration` the time that it takes to run its course. Where a time is no number,
or a boundary of a curve is none, the comparisons are false and the last branch decides.
-/
namespace BusRegen

/-- A constant voltage for some time. -/
structure Hold where
  voltage : Float
  duration : Float

/-- `low` from `start` up to but not at `stop`, and `baseline` otherwise. -/
structure Dip where
  baseline : Float
  low : Float
  start : Float
  stop : Float

/-- A fall from `baseline` to `floor`, a hold there and a rise back. -/
structure Ramp where
  baseline : Float
  floor : Float
  start : Float
  fallRate : Float
  hold : Float
  riseRate : Float

/-- `VoltageProfile`: the kinds of curves. -/
inductive Profile where
  | constant (voltage : Float)
  | step (d : Dip)
  | ramp (r : Ramp)
  /-- A smooth regeneration: a fall along a cosine, a hold with ripple, an exponential recovery. -/
  | smoothDrop
  /-- One hold after the other; the last one stays. -/
  | sequence (holds : List Hold)

namespace Dip

def voltageAt (d : Dip) (t : Float) : Float :=
  if d.start ≤ t ∧ t < d.stop then d.low else d.baseline

end Dip

namespace Ramp

/-- How far the voltage falls; nothing if the floor is above the baseline. -/
def depth (r : Ramp) : Float := Scalar.larger (r.baseline - r.floor) 0

/-- When the floor is reached. -/
def fallEnd (r : Ramp) : Float := r.start + r.depth / r.fallRate

/-- When the rise begins. -/
def holdEnd (r : Ramp) : Float := r.fallEnd + r.hold

def voltageAt (r : Ramp) (t : Float) : Float :=
  if t < r.start then r.baseline
  else if t < r.fallEnd then Scalar.larger (r.baseline - (t - r.start) * r.fallRate) r.floor
  else if t < r.holdEnd then r.floor
  else Scalar.smaller (r.floor + (t - r.holdEnd) * r.riseRate) r.baseline

def naturalDuration (r : Ramp) : Float :=
  r.start + r.depth / r.fallRate + r.hold + r.depth / r.riseRate

end Ramp

namespace Profile

def pi : Float := 3.141592653589793

/-- The smooth curve without its ripple. -/
def smoothBase (t : Float) : Float :=
  if t < 3.0 then 48.0
  else if t < 7.0 then 48.0 - 2.5 * (1.0 - ((t - 3.0) / 4.0 * pi).cos) / 2.0
  else if t < 10.0 then 45.5 + 0.3 * ((t - 7.0) * 2.0).sin
  else if t < 15.0 then 45.5 + 2.5 * (1.0 - (-2.0 * ((t - 10.0) / 5.0)).exp)
  else 48.0 - 0.2 * (-(t - 15.0)).exp

/-- `smooth_drop`: the curve with its ripple. -/
def smoothAt (t : Float) : Float := smoothBase t + 0.01 * (t * 100.0).sin

/-- The voltage of the first hold that ends after `t`, when `elapsed` has passed before the holds
and `last` is the voltage after them. -/
def heldAt (t elapsed last : Float) : List Hold → Float
  | [] => last
  | h :: rest =>
    if t < elapsed + h.duration then h.voltage else heldAt t (elapsed + h.duration) h.voltage rest

/-- `VoltageProfile.voltage_at`. The voltage of a sequence without holds is no number. -/
def voltageAt (p : Profile) (t : Float) : Float :=
  match p with
  | constant v => v
  | step d => d.voltageAt t
  | ramp r => r.voltageAt t
  | smoothDrop => smoothAt t
  | sequence holds => heldAt t 0 Scalar.nan holds

/-- The sum of the durations from left to right. The sum of none is negative zero, the neutral
element of addition. -/
def totalDuration (holds : List Hold) : Float :=
  holds.foldl (fun sum h => sum + h.duration) (Scalar.zero true)

/-- `VoltageProfile.natural_duration`: the time in which a curve runs its course. -/
def naturalDuration : Profile → Float
  | constant _ => 10.0
  | step d => d.stop + 2.0
  | ramp r => r.naturalDuration
  | smoothDrop => 20.0
  | sequence holds => totalDuration holds

/-- The description of a curve in traces and reports. -/
def describe : Profile → String
  | constant v => s!"constant {Decimal.fixed 2 v} V"
  | step d =>
    s!"step to {Decimal.fixed 2 d.low} V ({Decimal.fixed 1 d.start}s - {Decimal.fixed 1 d.stop}s)"
  | ramp r => s!"ramp down to {Decimal.fixed 2 r.floor} V"
  | smoothDrop => "smooth drop"
  | sequence holds => s!"sequence of {holds.length} holds"

/-! ## The curves with a name -/

def standardStep : Dip := ⟨48.0, 46.0, 2.0, 8.0⟩

def standardRamp : Ramp := ⟨48.0, 45.0, 2.0, 0.5, 2.0, 0.6⟩

def rapidHolds : List Hold := [48.0, 45.0, 47.0, 46.0, 48.0].map (⟨·, 0.5⟩)

/-- `VoltageProfile.preset`: the curve with a name. -/
def preset? : String → Option Profile
  | "smooth" => some smoothDrop
  | "step" => some (step standardStep)
  | "ramp" => some (ramp standardRamp)
  | "rapid" => some (sequence rapidHolds)
  | _ => none

/-- Whether a curve is computed from sines, cosines and exponentials. -/
def isSmooth : Profile → Bool
  | smoothDrop => true
  | _ => false

end Profile
end BusRegen
