import BusRegen.Flag
import BusRegen.Zone
import BusRegen.Decimal.Fixed
/-!
# Traces

A trace is the record of a run, a point for each tick, with what is needed to read it: what drove
the run, the tick period in whole microseconds and the three voltages. `toCsv` writes it as a
table.
-/
namespace BusRegen

structure TracePoint where
  time : Float
  voltage : Float
  /-- The absolute value of the current that was commanded. -/
  current : Float
  zone : Zone
  /-- Whether the tick was in the regulating zone. -/
  active : Bool

structure TraceMetadata where
  source : String
  periodMicros : UInt64
  targetVoltage : Float
  thresholdVoltage : Float
  minimumVoltage : Float

/-- `RegenTrace`: a run, point by point. -/
structure Trace where
  version : UInt8
  metadata : TraceMetadata
  points : List TracePoint

namespace Trace

/-- `TRACE_VERSION`: the version of the records that this library writes and reads. -/
def currentVersion : UInt8 := 1

/-- `RegenTrace.dt`: the recorded tick period in seconds. -/
def dt (t : Trace) : Float := Float.ofNat t.metadata.periodMicros.toNat / 1e6

/-- `filter_by_time`: the points from one time to another, both included. -/
def between (t : Trace) (start stop : Float) : Trace :=
  { t with points := t.points.filter fun p => start ≤ p.time && p.time ≤ stop }

/-! ## The table -/

def csvHeader : List Char := "t,voltage,current,zone,active".toList

/-- The fields of a line. -/
def csvFields (p : TracePoint) : List (List Char) :=
  [Decimal.fixedChars 4 p.time, Decimal.fixedChars 4 p.voltage, Decimal.fixedChars 4 p.current,
    p.zone.name.toList, Flag.chars p.active]

def csvLine (p : TracePoint) : List Char := (csvFields p).intersperse [','] |>.flatten

def csvChars (t : Trace) : List Char :=
  (csvHeader :: t.points.map csvLine).flatMap (· ++ ['\n'])

/-- `RegenTrace.to_csv`: the header, and a line for each point. -/
def toCsv (t : Trace) : String := String.ofList t.csvChars

end Trace
end BusRegen
