import BusRegen.Loop.Metrics
import BusRegen.Loop.Settings
import BusRegen.Loop.Status
/-!
# The runner of a control loop

A runner (`RegulatorRunner`) owns a regulator and a power stage and has a worker tick them, one
period after the other. The client calls (`start`, `stop`, `resetTelemetry`) and the turns of the
worker are taken one after the other here, so a history of a runner is a sequence of them.

A run ends in one of three ways: by `stop`, when its iterations are used up, or by a crash of the
stage. Each of them goes through `halt`, which releases the motor; after that the worker makes no
more calls. A worker stays with the runner until the next `start` or `stop` takes it away.

A turn is a whole iteration of `run_loop`: the look at the flag, the tick under the lock and its
counts, which are made without it. If it ends the run, the release that closes the run is a part of
it, although it takes the lock a second time, and a `stop` may come in between. What can happen
between the steps of a turn and of a `stop` is the subject of `BusRegen.Loop.Threads`. How long a
turn takes, and what is written to the log, is left out.
-/
namespace BusRegen

/-- Why a runner is not made or not started (`DriverError`). -/
inductive RunnerError where
  | alreadyRunning
  | config (e : ConfigError)
  | loop (e : LoopError)
  /-- The system has no thread for the worker, and says why. -/
  | spawn (reason : String)

namespace RunnerError

def message : RunnerError → String
  | alreadyRunning => "Regulator loop is already running"
  | config e => s!"Invalid regulator configuration: {e.message}"
  | loop e => s!"Invalid loop configuration: {e.message}"
  | spawn reason => s!"Failed to spawn regulator thread: {reason}"

end RunnerError

structure Runner (σ : Type) where
  config : Config
  settings : LoopSettings
  period : TickPeriod
  overrunLimit : Duration
  regulator : Regulator
  stage : σ
  status : Status := {}
  metrics : Metrics := {}
  /-- Whether the worker is meant to go on. -/
  running : Bool := false
  /-- Whether the motor was released for good until the next start. -/
  halted : Bool := true
  /-- The ticks of the worker's run, if there is a worker. -/
  worker : Option Nat := none

namespace Runner

variable {σ : Type} [PowerStage σ]

/-- `RegulatorRunner.new`: a runner at rest. The loop settings are checked first, then those of the
regulator, then whether the two fit together. -/
def create (c : Config) (l : LoopSettings) (s : σ) : Except RunnerError (Runner σ) := do
  l.check.mapError .loop
  let r ← (Regulator.create c).mapError .config
  let limit ← (l.overrunLimit r.period).mapError .loop
  return { config := c, settings := l, period := r.period, overrunLimit := limit
           regulator := r, stage := s }

/-- Publishes what the regulator says. -/
def publish (r : Runner σ) : Runner σ := { r with status := .ofRegulator r.regulator }

/-- `Shared.halt`: releases the motor for good. A release that fails is counted; one that crashes
leaves the status as it was. -/
def halt (r : Runner σ) : Runner σ :=
  let call := PowerStage.release r.stage
  let r := { r with halted := true, stage := call.2 }
  match call.1 with
  | .crash => r
  | reply =>
    { r with metrics := r.metrics.countActuator reply.fault?, status := r.status.markReleased }

/-- `start`: begins a run, unless one is going on, and says whether it has. The regulator starts
without a past, but its telemetry goes on. If the system has no thread for the worker, `noThread?`
says why, and the runner is at rest again, with the regulator reset and the worker of the last run
taken away. -/
def start (r : Runner σ) (noThread? : Option String := none) :
    Except RunnerError Unit × Runner σ :=
  if r.running then (.error .alreadyRunning, r)
  else
    let r := { r with regulator := r.regulator.reset, halted := false, worker := none }.publish
    match noThread? with
    | none => (.ok (), { r with running := true, worker := some 0 })
    | some reason => (.error (.spawn reason), { r with halted := true })

/-- `stop`: ends the run if there is one, and takes the worker away. If the release crashes, the
call does, and makes no second one. -/
def stop (r : Runner σ) : Runner σ :=
  match r.worker with
  | none => r
  | some _ =>
    let stopped := { r with worker := none, running := false }
    if r.running then stopped.halt else stopped

/-- `RegulatorRunner.drop`: the runner is given up. Its run ends, and the stage is left as it is
then. -/
def drop (r : Runner σ) : σ := r.stop.stage

/-- `reset_telemetry`, which publishes what the regulator says even at rest. -/
def resetTelemetry (r : Runner σ) : Runner σ :=
  { r with regulator := r.regulator.resetTelemetry }.publish

/-- `ExitGuard.drop` after a crash of the tick: the worker releases the motor and is gone. -/
def finish (r : Runner σ) : Runner σ := { r.halt with running := false }

/-- The end of a run whose iterations are used up: the worker releases the motor and leaves its
loop. If the release crashes, it is made a second time on the way out, by `ExitGuard.drop`. -/
def complete (r : Runner σ) : Runner σ :=
  match (PowerStage.release r.stage).1 with
  | .crash => r.halt.finish
  | _ => r.finish

/-- Whether a run of so many ticks has used up its iterations. -/
def isUsedUp (l : LoopSettings) (ticks : Nat) : Bool := l.maxIterations.any (· ≤ ticks)

/-- One iteration of `run_loop`, which makes a tick if the run goes on. A tick that crashes is
neither published nor counted. A turn that ends the run includes the release that closes it. -/
def tick (r : Runner σ) : Runner σ :=
  match r.worker with
  | none => r
  | some n =>
    if r.running = false ∨ r.halted then r
    else
      let s := r.regulator.step r.stage r.period
      let r := { r with regulator := s.regulator, stage := s.stage }
      match s.outcome with
      | none => r.finish
      | some o =>
        let r := { r.publish with metrics := r.metrics.record o, worker := some (n + 1) }
        if isUsedUp r.settings (n + 1) then r.complete else r

/-- At most `n` turns of the worker, fewer if the run ends before. -/
def ticks (r : Runner σ) : Nat → Runner σ
  | 0 => r
  | n + 1 => if r.running then r.tick.ticks n else r

/-- Changes the stage from outside. -/
def mapStage (r : Runner σ) (f : σ → σ) : Runner σ := { r with stage := f r.stage }

end Runner
end BusRegen
