import BusRegen.Profile
import BusRegen.Trace
import BusRegen.Regulator
/-!
# Simulation without a stage

A simulator drives one regulator with a voltage curve, tick after tick at the nominal period, and
records a trace. Each run starts from a regulator without a past and without telemetry. A run of
more than ten million ticks is refused and changes nothing.

`run` gives the simulator that a run leaves, if it is not refused. `perform` is the same run as a
call that changes a simulator step by step, and keeps what it has changed when it is refused.
-/
namespace BusRegen

/-- A run would need more ticks than are allowed. -/
structure RunTooLong where
  duration : Duration
  ticks : Nat

structure Simulator where
  regulator : Regulator

namespace Simulator

/-- `MAX_SIMULATION_STEPS`: the most ticks that a run may have. -/
def maxTicks : Nat := 10000000

/-- What is said of settings that no regulator can be built from. -/
def refusal : String := "创建调节器失败"

/-- `Simulator.new`: a simulator, if the settings are valid. -/
def create (c : Config) : Except ConfigError Simulator := return ⟨← Regulator.create c⟩

/-- The number of ticks that is nearest to a duration. -/
def ticksFor (duration : Duration) (p : TickPeriod) : Nat :=
  Scalar.nearestNat (duration.seconds / p.seconds)

/-- The point of a trace that a tick gives. -/
def pointOf (time : Float) (o : Output) : TracePoint :=
  { time, voltage := o.voltage, current := o.appliedCurrent, zone := o.zone
    active := o.isRegulating }

/-- Ticks number `i`, `i + 1`, …, so many of them, after the points already recorded, which are in
reverse. -/
def drive (p : Profile) (dt : Float) (r : Regulator) (seen : List TracePoint) (i : Nat) :
    Nat → List TracePoint × Regulator
  | 0 => (seen.reverse, r)
  | n + 1 =>
    let time := Float.ofNat i * dt
    let t := r.tick (p.voltageAt time) r.period
    drive p dt t.2 (pointOf time t.1 :: seen) (i + 1) n

def metadata (r : Regulator) (p : Profile) : TraceMetadata :=
  { source := p.describe
    periodMicros := r.period.duration.microseconds
    targetVoltage := r.config.targetVoltage
    thresholdVoltage := r.config.thresholdVoltage
    minimumVoltage := r.config.minimumVoltage }

/-- `Simulator.run`: runs a curve for a duration. -/
def run (s : Simulator) (p : Profile) (duration : Duration) :
    Except RunTooLong (Trace × Simulator) :=
  let n := ticksFor duration s.regulator.period
  if maxTicks < n then .error ⟨duration, n⟩
  else
    let r := s.regulator.reset.resetTelemetry
    let d := drive p r.period.seconds r [] 0 n
    .ok ({ version := Trace.currentVersion, metadata := metadata r p, points := d.1 }, ⟨d.2⟩)

/-! ## Runs in place -/

/-- Ticks number `i`, `i + 1`, …, so many of them, each of which changes the simulator. -/
def record (p : Profile) (dt : Float) (seen : List TracePoint) (i : Nat) :
    Nat → StateM Simulator (List TracePoint)
  | 0 => return seen.reverse
  | n + 1 => do
    let r := (← get).regulator
    let time := Float.ofNat i * dt
    let t := r.tick (p.voltageAt time) r.period
    set (Simulator.mk t.2)
    record p dt (pointOf time t.1 :: seen) (i + 1) n

/-- `Simulator.run` as a call on a simulator. -/
def perform (p : Profile) (duration : Duration) : ExceptT RunTooLong (StateM Simulator) Trace := do
  let period := (← get).regulator.period
  let n := ticksFor duration period
  if maxTicks < n then throw ⟨duration, n⟩
  modify fun s => ⟨s.regulator.reset⟩
  modify fun s => ⟨s.regulator.resetTelemetry⟩
  let metadata := metadata (← get).regulator p
  let points ← record p period.seconds [] 0 n
  return { version := Trace.currentVersion, metadata, points }

end Simulator

namespace RunTooLong

def message (e : RunTooLong) : String :=
  s!"仿真时长 {Decimal.fixed 1 e.duration.seconds} s 需要 {e.ticks} 个 tick，" ++
    s!"超过上限 {Simulator.maxTicks}"

end RunTooLong
end BusRegen
