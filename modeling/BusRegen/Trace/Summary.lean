import BusRegen.Trace
/-!
# What a trace amounts to

The sums are taken over the points from left to right, and each point stands for one tick period.
The averages are over the active points, so there are none without them.
-/
namespace BusRegen

/-- `RegenSummary`: times in s, voltages in V, currents in A. -/
structure Summary where
  samples : Nat
  totalTime : Float
  activeTime : Float
  /-- Mean voltage and mean current of the active points. -/
  averages : Option (Float × Float)
  maxCurrent : Float
  /-- In Wh. -/
  energy : Float

/-- The sums of a trace up to some point. -/
structure Tally where
  active : Nat := 0
  voltageSum : Float := 0
  currentSum : Float := 0
  maxCurrent : Float := 0
  energy : Float := 0

namespace Tally

/-- What a point adds to the sums. -/
def add (dt : Float) (s : Tally) (p : TracePoint) : Tally :=
  { active := if p.active then s.active + 1 else s.active
    voltageSum := if p.active then s.voltageSum + p.voltage else s.voltageSum
    currentSum := if p.active then s.currentSum + p.current else s.currentSum
    maxCurrent := Scalar.larger s.maxCurrent p.current
    energy := s.energy + p.current * p.voltage * dt / 3600 }

end Tally

namespace Summary

/-- `RegenSummary.from_trace`: sums up a trace. -/
def ofTrace (t : Trace) : Summary :=
  let dt := t.dt
  let samples := t.points.length
  let s := t.points.foldl (Tally.add dt) {}
  let n := Float.ofNat s.active
  { samples
    totalTime := Float.ofNat samples * dt
    activeTime := n * dt
    averages := if s.active = 0 then none else some (s.voltageSum / n, s.currentSum / n)
    maxCurrent := s.maxCurrent
    energy := s.energy }

/-- `active_ratio`: the active part of the time, in percent. -/
def activeRatio (s : Summary) : Float :=
  if s.totalTime ≤ 0 then 0 else s.activeTime / s.totalTime * 100

def averageLines : Option (Float × Float) → List String
  | some (v, i) =>
    [s!"Avg voltage (regen):   {Decimal.fixed 2 v} V",
      s!"Avg current (regen):   {Decimal.fixed 2 i} A"]
  | none => ["Avg voltage (regen):   n/a"]

def lines (s : Summary) : List String :=
  [s!"Samples:               {s.samples}",
    s!"Regen active time:     {Decimal.fixed 2 s.activeTime} s of " ++
      s!"{Decimal.fixed 2 s.totalTime} s ({Decimal.fixed 1 s.activeRatio}%)"] ++
    averageLines s.averages ++
    [s!"Max current:           {Decimal.fixed 2 s.maxCurrent} A",
      s!"Energy recovered:      {Decimal.fixed 4 s.energy} Wh"]

def text (s : Summary) : String := "\n".intercalate s.lines

end Summary
end BusRegen
