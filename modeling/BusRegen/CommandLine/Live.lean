import BusRegen.CommandLine.Job
import BusRegen.Loop.Runner
import BusRegen.Stage.Scripted
/-!
# The action `live`

Runs the control loop on a scripted stage while the input voltage follows a curve. A `LiveRun` says
what has to be done at which time since the start: the ticks that are due, and every five
milliseconds a new input voltage. `course` does so in simulated time, where nothing is ever late.
-/
namespace BusRegen.CommandLine

/-- `FEED_INTERVAL`: the time between two input voltages, in nanoseconds. -/
def feedInterval : Nat := 5000000

/-- `LIVE_COMMAND_LOG_CAPACITY`: few, as the stage counts its calls besides. -/
def liveLogCapacity : Nat := 64

structure LiveRun where
  profile : Profile
  seconds : Float
  /-- When the run ends. -/
  deadline : Duration
  /-- The time from one status line to the next. -/
  statusInterval : Duration
  runner : Runner ScriptedStage
  /-- How many ticks have been due so far. -/
  turns : Nat := 0

namespace LiveRun

/-- The time between status lines, of which there are so many per second: to the nearest
nanosecond, so that it is zero for very many. -/
def intervalOf (frequency : Nat) : Duration :=
  (Duration.ofSeconds? (1.0 / Float.ofNat frequency)).getD .zero

def stageAt (p : Profile) (t : Float) : ScriptedStage :=
  (({} : ScriptedStage).set (.voltage (p.voltageAt t))).set (.logCapacity liveLogCapacity)

/-- Whether another tick is due. The first is due at the start, and the others follow in periods. -/
def isDue (l : LiveRun) (elapsed : Nat) : Bool :=
  l.turns * l.runner.period.duration.nanoseconds < elapsed

def turn (l : LiveRun) : LiveRun := { l with runner := l.runner.tick, turns := l.turns + 1 }

/-- Takes in the time from the tick before to the last one and how long that has taken, in
nanoseconds. -/
def time (l : LiveRun) (interval : Option Nat) (taken : Nat) : LiveRun :=
  let late := interval.any (l.runner.overrunLimit.nanoseconds < ·)
  { l with runner := { l.runner with metrics := l.runner.metrics.time (taken / 1000) late } }

/-- Sets the input voltage for a time since the start. -/
def feed (l : LiveRun) (elapsed : Duration) : LiveRun :=
  { l with runner :=
      l.runner.mapStage (·.set (.voltage (l.profile.voltageAt elapsed.seconds))) }

/-- At most so many turns, as long as they are due and the loop runs. -/
def catchUp (l : LiveRun) (elapsed : Nat) : Nat → LiveRun
  | 0 => l
  | n + 1 => if l.runner.running && l.isDue elapsed then l.turn.catchUp elapsed n else l

/-- The number of ticks that a time has room for. -/
def room (l : LiveRun) (elapsed : Nat) : Nat :=
  elapsed / l.runner.period.duration.nanoseconds + 1

/-- From one feeding to the next, at most so many of them, until the deadline or the end of the
loop. -/
def course (l : LiveRun) (elapsed : Nat) : Nat → LiveRun
  | 0 => l
  | n + 1 =>
    let l := l.catchUp elapsed (l.room elapsed)
    match Duration.ofNanoseconds? elapsed with
    | none => l
    | some now =>
      if l.deadline.nanoseconds ≤ elapsed || !l.runner.running then l
      else (l.feed now).course (elapsed + feedInterval) n

def feedings (l : LiveRun) : Nat := l.deadline.nanoseconds / feedInterval + 2

def stop (l : LiveRun) : LiveRun := { l with runner := l.runner.stop }

/-! ## Reports -/

def openingLines (l : LiveRun) : List String :=
  [s!"▶️  实时运行: {l.profile.describe} ({Decimal.fixed 2 l.seconds} s, " ++
      s!"{Decimal.fixed 0 l.runner.config.tickRate} Hz)",
    "按 Ctrl+C 停止"]

def padLeft (width : Nat) (s : String) : String := "".pushn ' ' (width - s.length) ++ s

def padRight (width : Nat) (s : String) : String := s.pushn ' ' (width - s.length)

/-- `print_status`: the line that says how the loop is doing. -/
def statusLine (l : LiveRun) (elapsed : Duration) : String :=
  let s := l.runner.status
  let marker := if s.isRegulating then "⚡" else "  "
  let voltage := (s.voltage.map fun v => Decimal.fixed 3 v ++ " V").getD "--"
  let zone := (s.zone.map Zone.name).getD "--"
  s!"{marker} [{padLeft 6 (Decimal.fixed 2 elapsed.seconds)}s] {padLeft 10 voltage}  " ++
    s!"{padRight 12 zone} current {padLeft 6 (Decimal.fixed 2 s.appliedCurrent)} A"

def closingLines (l : LiveRun) : List String :=
  let m := l.runner.metrics
  "" :: telemetryLines l.runner.status.telemetry ++
    ["循环:",
      s!"  Overruns:            {m.overruns} ({Decimal.fixed 2 m.overrunRate}%)",
      s!"  Max tick:            {m.maxTickMicros} µs",
      s!"  Faults:              sensor {m.sensorErrors}, actuator {m.actuatorErrors}",
      "  Motor released:      " ++ (if l.runner.stage.motorReleased then "yes" else "no")]

end LiveRun

namespace Job

variable {m : Type → Type} [Monad m] [Files m]

/-- The run that a request asks for, with its loop started. -/
def begin (r : LiveRequest) : Job m LiveRun := do
  let f ← settings r.config
  let c ← config f
  let p ← profile r.profile
  let seconds := r.duration.getD p.naturalDuration
  let deadline ← duration seconds
  if r.frequency = 0 then refuse "打印频率必须大于 0"
  let runner ← attempt (pure (Runner.create c f.loopSettings (LiveRun.stageAt p 0)))
    RunnerError.message
  let (started, runner) := runner.start
  attempt (pure started) fun _ => "启动控制线程失败"
  let statusInterval := LiveRun.intervalOf r.frequency
  return { profile := p, seconds, deadline, statusInterval, runner }

/-- `LiveCommand.execute` in simulated time: the whole run. It does not get beyond its opening if
the status would have to be shown without a pause. -/
def live (r : LiveRequest) : Job m Unit := do
  let l ← begin r
  sayAll l.openingLines
  if l.statusInterval.isZero then throw .crash
  sayAll (l.course 0 l.feedings).stop.closingLines

end Job
end BusRegen.CommandLine
