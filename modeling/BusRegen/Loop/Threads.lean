import BusRegen.Loop.Runner
/-!
# A worker and a stop, step by step

A turn of the worker and a `stop` are not atomic. Both share a flag, `running`, that is read and
written without a lock, and work on the stage under one lock. Between their steps the other thread
may make any of its own, so that a tick that has begun may find the motor released, and a run may
end by itself while it is being stopped.

Here both are cut into their atomic steps. A schedule says whose step is next, and `Threads.run` is
where it leads. A thread whose turn it is but that has to wait, or has ended, makes no step. The
client's calls exclude each other, so there is one worker and at most one `stop`.
-/
namespace BusRegen

/-- Where the worker is in `run_loop`. -/
inductive LoopPhase where
  /-- It is about to see whether the run goes on. -/
  | checking
  /-- It is about to take the lock for a tick. -/
  | entering
  /-- It has left the lock after a complete tick, and is about to count it. -/
  | counting (o : StepOutcome)
  /-- It has used up its iterations, and is about to release the motor. -/
  | halting
  /-- It waits for the next deadline. -/
  | waiting
  /-- A call has crashed under the lock; what unwinds is about to release the motor. -/
  | unwinding
  /-- It is out of its loop, and is about to say that it is not running. -/
  | leaving
  | gone

namespace LoopPhase

/-- Whether it is out of its loop, with its last call to the stage made. -/
@[grind]
def hasLeft : LoopPhase → Bool
  | leaving | gone => true
  | _ => false

end LoopPhase

/-- Where a `stop` is. -/
inductive StopPhase where
  | called
  /-- It has taken the flag down, and was told whether it was up. -/
  | swapped (wasRunning : Bool)
  /-- It has sent for the worker, and is about to release the motor. -/
  | halting
  /-- It waits until the worker is gone. -/
  | joining
  | returned
  /-- The release has crashed, and the `stop` with it. -/
  | crashed
  deriving DecidableEq

namespace StopPhase

/-- Whether the worker was sent for, which ends its wait. -/
@[grind]
def hasSignalled : StopPhase → Bool
  | called | swapped _ => false
  | _ => true

/-- Whether it has left the lock again, or has found that it does not need it. -/
@[grind]
def isPastLock : StopPhase → Bool
  | joining | returned => true
  | _ => false

end StopPhase

/-- Whose step is next. -/
inductive ThreadStep where
  | loop
  /-- The wait of the worker ends before its deadline. -/
  | wake
  | stop
  deriving DecidableEq

/-- A runner with its worker and a `stop`, each in the middle of what it does. -/
structure Threads (σ : Type) where
  runner : Runner σ
  loop : LoopPhase := .checking
  stop : StopPhase := .called

namespace Threads

variable {σ : Type} [PowerStage σ]

/-- A step of the worker: of `run_loop` or, once that has ended, of `ExitGuard.drop`. -/
def stepLoop (t : Threads σ) : Threads σ :=
  let r := t.runner
  match t.loop with
  | .checking => { t with loop := if r.running then .entering else .leaving }
  | .entering =>
    if r.halted then { t with loop := .leaving }
    else
      let s := r.regulator.step r.stage r.period
      let r := { r with regulator := s.regulator, stage := s.stage }
      match s.outcome with
      | none => { t with runner := r, loop := .unwinding }
      | some o => { t with runner := r.publish, loop := .counting o }
  | .counting o =>
    let r := { r with metrics := r.metrics.record o, worker := r.worker.map (· + 1) }
    { t with
      runner := r, loop := if r.worker.any (Runner.isUsedUp r.settings) then .halting else .waiting }
  | .halting =>
    match (PowerStage.release r.stage).1 with
    | .crash => { t with runner := r.halt, loop := .unwinding }
    | _ => { t with runner := r.halt, loop := .leaving }
  | .waiting => { t with loop := .checking }
  | .unwinding => { t with runner := r.halt, loop := .leaving }
  | .leaving => { t with runner := { r with running := false }, loop := .gone }
  | .gone => t

/-- The end of a wait that was not waited out, as `stop` has sent for the worker. -/
def stepWake (t : Threads σ) : Threads σ :=
  match t.loop with
  | .waiting => if t.stop.hasSignalled then { t with loop := .leaving } else t
  | _ => t

/-- A step of the `stop`, with its wait in `join_worker`. -/
def stepStop (t : Threads σ) : Threads σ :=
  let r := t.runner
  match t.stop with
  | .called =>
    match r.worker with
    | none => { t with stop := .returned }
    | some _ => { t with runner := { r with running := false }, stop := .swapped r.running }
  | .swapped wasRunning => { t with stop := if wasRunning then .halting else .joining }
  | .halting =>
    match (PowerStage.release r.stage).1 with
    | .crash => { t with runner := r.halt, stop := .crashed }
    | _ => { t with runner := r.halt, stop := .joining }
  | .joining =>
    match t.loop with
    | .gone => { t with runner := { r with worker := none }, stop := .returned }
    | _ => t
  | .returned | .crashed => t

def step (t : Threads σ) : ThreadStep → Threads σ
  | .loop => t.stepLoop
  | .wake => t.stepWake
  | .stop => t.stepStop

/-- Where a schedule leads. -/
def run (t : Threads σ) (schedule : List ThreadStep) : Threads σ := schedule.foldl step t

end Threads
end BusRegen
