import BusRegen.Loop.Runner
import BusRegen.Proofs.ControlStep
/-!
# Histories of a runner

Four things happen to a runner: a client starts it, stops it or clears its telemetry, and its worker
takes a turn. A fifth happens to its stage, behind the runner's back. These are the events of a
history; they come in any order, and `Runner.react` is the runner after one of them. A turn of the
worker that ends the run includes the release that closes it. A start may find that the system has
no thread for the worker.

A runner is either at rest, halted and with or without a worker that has ended, or it is running,
not halted and with a worker (`Coherent`). For a coherent runner there are eleven ways for an event
to go, listed in `Happens` with all that is known of each. An invariant of a runner is therefore
proved by cases on `Happens`, one case a way, and lifted to all histories by `moves_induction`.

What a history was like is read from its moves: an event with the runner before and after it.
-/
namespace BusRegen

inductive Event (ι : Type) where
  /-- A start, and why there is no thread for the worker if there is none. -/
  | start (noThread? : Option String := none)
  | stop
  | resetTelemetry
  /-- The worker takes a turn. -/
  | tick
  /-- Something is done to the stage from outside. -/
  | set (x : ι)

namespace Runner

variable {σ ι : Type}

/-! ## Creation and start -/

/-- At rest or running, and nothing in between. -/
structure Coherent (r : Runner σ) : Prop where
  halted_eq : r.halted = !r.running
  worker : r.running = true → ∃ n, r.worker = some n

theorem create_eq_ok {c : Config} {l : LoopSettings} {s : σ} {r : Runner σ}
    (h : create c l s = .ok r) :
    ∃ g limit, Regulator.create c = .ok g ∧ l.overrunLimit g.period = .ok limit ∧
      l.check = .ok () ∧
      r = { config := c, settings := l, period := g.period, overrunLimit := limit
            regulator := g, stage := s } := by
  unfold create at h
  cases hl : l.check with
  | error e => rw [hl] at h; cases h
  | ok u =>
    cases hg : Regulator.create c with
    | error e => rw [hl, hg] at h; cases h
    | ok g =>
      rw [hl, hg] at h
      cases hlim : l.overrunLimit g.period with
      | error e =>
        change (l.overrunLimit g.period).mapError RunnerError.loop >>= _ = _ at h
        rw [hlim] at h
        cases h
      | ok limit =>
        change (l.overrunLimit g.period).mapError RunnerError.loop >>= _ = _ at h
        rw [hlim] at h
        cases h
        exact ⟨g, limit, rfl, hlim, rfl, rfl⟩

theorem coherent_of_create {c : Config} {l : LoopSettings} {s : σ} {r : Runner σ}
    (h : create c l s = .ok r) : r.Coherent := by
  obtain ⟨g, limit, -, -, -, rfl⟩ := create_eq_ok h
  exact ⟨rfl, fun hr => by cases hr⟩

/-- The runner after a start. -/
def begun (r : Runner σ) : Runner σ :=
  { r with
    regulator := r.regulator.reset, status := .ofRegulator r.regulator.reset
    halted := false, running := true, worker := some 0 }

/-- The runner after a start without a thread for the worker. -/
def unspawned (r : Runner σ) : Runner σ :=
  { r with
    regulator := r.regulator.reset, status := .ofRegulator r.regulator.reset
    halted := true, worker := none }

/-- A runner is not both at rest and running. -/
theorem not_running {r : Runner σ} (rest : r.running = false) : ¬ r.running = true := by
  rw [rest]
  exact Bool.false_ne_true

theorem start_of_running {r : Runner σ} (h : r.running = true) (noThread? : Option String) :
    r.start noThread? = (.error .alreadyRunning, r) :=
  if_pos h

theorem start_of_resting {r : Runner σ} (h : r.running = false) : r.start = (.ok (), r.begun) :=
  if_neg (not_running h)

theorem start_without_thread {r : Runner σ} (h : r.running = false) (reason : String) :
    r.start (some reason) = (.error (.spawn reason), r.unspawned) :=
  if_neg (not_running h)

variable [PowerStage σ]

/-! ## Events -/

section
variable [Settable σ ι]

def react (r : Runner σ) : Event ι → Runner σ
  | .start noThread? => (r.start noThread?).2
  | .stop => r.stop
  | .resetTelemetry => r.resetTelemetry
  | .tick => r.tick
  | .set x => r.mapStage (Settable.set · x)

/-- The runner after a history. -/
def run (r : Runner σ) (es : List (Event ι)) : Runner σ := es.foldl react r

end

/-- One event of a history, with the runner before and after it. -/
structure Move (σ ι : Type) where
  before : Runner σ
  event : Event ι
  after : Runner σ

def moves [Settable σ ι] (r : Runner σ) : List (Event ι) → List (Move σ ι)
  | [] => []
  | e :: es => ⟨r, e, r.react e⟩ :: (r.react e).moves es

/-! ## What the operations do -/

/-- The runner after a turn with a complete step, the `n + 1`st of the run. -/
def ticked (r : Runner σ) (g : Regulator) (s : σ) (o : StepOutcome) (n : Nat) : Runner σ :=
  { r with
    regulator := g, stage := s, status := .ofRegulator g, metrics := r.metrics.record o
    worker := some (n + 1) }

/-- The runner as a crash of its stage leaves it to the worker. -/
def crashed (r : Runner σ) (g : Regulator) (s : σ) : Runner σ :=
  { r with regulator := g, stage := s }

/-- The runner without its worker. -/
def dismissed (r : Runner σ) : Runner σ := { r with worker := none }

section
variable (r : Runner σ)

@[simp] theorem running_finish : r.finish.running = false := rfl

@[simp] theorem halted_finish : r.finish.halted = true := by
  simp only [finish, halt]
  split <;> rfl

@[simp] theorem stage_finish : r.finish.stage = (PowerStage.release r.stage).2 := by
  simp only [finish, halt]
  split <;> rfl

@[simp] theorem regulator_finish : r.finish.regulator = r.regulator := by
  simp only [finish, halt]
  split <;> rfl

variable {r}

/-- The end of a run, if the release that closes it does not crash. -/
theorem finish_eq (h : (PowerStage.release r.stage).1 ≠ .crash) :
    r.finish =
      { r with
        stage := (PowerStage.release r.stage).2
        metrics := r.metrics.countActuator (PowerStage.release r.stage).1.fault?
        status := r.status.markReleased
        halted := true, running := false } := by
  cases hc : (PowerStage.release r.stage).1 with
  | crash => contradiction
  | done | fault => simp only [finish, halt, hc]

/-- The release that closes a run is made a second time only if it crashes. -/
theorem complete_eq (h : (PowerStage.release r.stage).1 ≠ .crash) : r.complete = r.finish := by
  unfold complete
  split
  · contradiction
  · rfl

theorem complete_cases (r : Runner σ) : r.complete = r.finish ∨ r.complete = r.halt.finish := by
  unfold complete
  split
  · exact .inr rfl
  · exact .inl rfl

theorem coherent_finish (r : Runner σ) : r.finish.Coherent :=
  ⟨halted_finish r, fun hr => by cases hr⟩

theorem stop_of_resting (h : r.running = false) : r.stop = r.dismissed := by
  unfold stop dismissed
  split
  · rename_i hw
    rw [← hw]
  · simp only [h, Bool.false_eq_true, if_false]

theorem stop_of_running {n : Nat} (h : r.running = true) (hw : r.worker = some n) :
    r.stop = r.finish.dismissed := by
  simp only [stop, hw, h, if_true, finish, halt, dismissed]
  split <;> rfl

theorem tick_of_resting (h : r.running = false) : r.tick = r := by
  unfold tick
  split
  · rfl
  · rw [if_pos (.inl h)]

/-- A turn of the worker in a run. -/
theorem tick_of_running {n : Nat} (hgo : ¬ (r.running = false ∨ r.halted = true))
    (hw : r.worker = some n) :
    r.tick =
      let d := r.regulator.step r.stage r.period
      match d.outcome with
      | none => (r.crashed d.regulator d.stage).finish
      | some o =>
        let t := r.ticked d.regulator d.stage o n
        if isUsedUp r.settings (n + 1) then t.complete else t := by
  cases ho : (r.regulator.step r.stage r.period).outcome with
  | none | some => simp only [tick, hw, if_neg hgo, ho, crashed, ticked, publish]

end

/-! ## The ways for an event to go -/

inductive Happens [Settable σ ι] (r : Runner σ) : Event ι → Runner σ → Prop where
  | refused (run : r.running = true) {noThread?} : Happens r (.start noThread?) r
  | begun (rest : r.running = false) : Happens r .start r.begun
  | unspawned (rest : r.running = false) {reason} : Happens r (.start (some reason)) r.unspawned
  | stopped (run : r.running = true) : Happens r .stop r.finish.dismissed
  | dismissed (rest : r.running = false) : Happens r .stop r.dismissed
  | cleared : Happens r .resetTelemetry r.resetTelemetry
  | idled (rest : r.running = false) : Happens r .tick r
  | ticked (run : r.running = true) {n g s o}
      (step : r.regulator.step r.stage r.period = ⟨g, s, some o⟩)
      (count : r.worker = some n) (more : isUsedUp r.settings (n + 1) = false) :
      Happens r .tick (r.ticked g s o n)
  | completed (run : r.running = true) {n g s o}
      (step : r.regulator.step r.stage r.period = ⟨g, s, some o⟩)
      (count : r.worker = some n) (last : isUsedUp r.settings (n + 1) = true) :
      Happens r .tick (r.ticked g s o n).complete
  | crashed (run : r.running = true) {g s}
      (step : r.regulator.step r.stage r.period = ⟨g, s, none⟩) :
      Happens r .tick (r.crashed g s).finish
  | set (x : ι) : Happens r (.set x) (r.mapStage (Settable.set · x))

section
variable [Settable σ ι] {r r' : Runner σ} {e : Event ι}

theorem happens_tick (h : r.Coherent) (run : r.running = true) :
    r.Happens (ι := ι) .tick r.tick := by
  obtain ⟨n, hw⟩ := h.worker run
  rw [tick_of_running (by simp [run, h.halted_eq]) hw]
  cases hs : r.regulator.step r.stage r.period with
  | mk g s o =>
    cases o with
    | none => exact .crashed run hs
    | some o =>
      dsimp only
      split
      · rename_i hu
        exact .completed run hs hw hu
      · rename_i hu
        exact .ticked run hs hw (by simpa using hu)

theorem happens (h : r.Coherent) (e : Event ι) : r.Happens e (r.react e) := by
  cases hr : r.running with
  | false =>
    cases e with
    | start noThread? =>
      cases noThread? with
      | none => rw [react, start_of_resting hr]; exact .begun hr
      | some reason => rw [react, start_without_thread hr]; exact .unspawned hr
    | stop => rw [react, stop_of_resting hr]; exact .dismissed hr
    | resetTelemetry => exact .cleared
    | tick => rw [react, tick_of_resting hr]; exact .idled hr
    | set x => exact .set x
  | true =>
    cases e with
    | start noThread? => rw [react, start_of_running hr]; exact .refused hr
    | stop =>
      obtain ⟨n, hw⟩ := h.worker hr
      rw [react, stop_of_running hr hw]
      exact .stopped hr
    | resetTelemetry => exact .cleared
    | tick => exact happens_tick h hr
    | set x => exact .set x

theorem Happens.coherent (h : r.Coherent) (w : r.Happens e r') : r'.Coherent := by
  cases w with
  | refused | idled => exact h
  | begun => exact ⟨rfl, fun _ => ⟨0, rfl⟩⟩
  | unspawned rest =>
    have hrest : r.unspawned.running = false := rest
    exact ⟨by rw [hrest]; rfl, fun hr => absurd hr (not_running hrest)⟩
  | stopped => exact ⟨(coherent_finish r).halted_eq, fun hr => by cases hr⟩
  | dismissed rest => exact ⟨h.halted_eq, fun hr => absurd hr (not_running rest)⟩
  | cleared | set => exact ⟨h.halted_eq, h.worker⟩
  | ticked => exact ⟨h.halted_eq, fun _ => ⟨_, rfl⟩⟩
  | @completed run n g s o =>
    rcases complete_cases (r.ticked g s o n) with hc | hc <;> rw [hc] <;> exact coherent_finish _
  | crashed => exact coherent_finish _

theorem running_stop (h : r.Coherent) : r.stop.running = false := by
  cases hr : r.running with
  | false => rw [stop_of_resting hr]; exact hr
  | true =>
    obtain ⟨n, hw⟩ := h.worker hr
    rw [stop_of_running hr hw]
    rfl

theorem coherent_run (h : r.Coherent) (es : List (Event ι)) : (r.run es).Coherent := by
  induction es generalizing r with
  | nil => exact h
  | cons e es ih => exact ih ((happens h e).coherent h)

/-- The stage does not leave the states in which it is dependable. -/
theorem Happens.kept {P : σ → Prop} (hP : Dependable P) (hs : P r.stage) (w : r.Happens e r') :
    P r'.stage := by
  have hstep := Regulator.Steps.kept hP.toKept hs (Regulator.steps hP hs r.regulator r.period)
  cases w with
  | refused | idled | begun | unspawned | dismissed | cleared => exact hs
  | set x => exact hP.set hs x
  | stopped =>
    rw [Runner.dismissed, stage_finish]
    exact hP.release hs
  | ticked run step =>
    rw [step] at hstep
    exact hstep
  | completed run step =>
    rw [step] at hstep
    rw [complete_eq (hP.release_ne_crash hstep), stage_finish]
    exact hP.release hstep
  | crashed run step =>
    rw [step] at hstep
    rw [stage_finish]
    exact hP.release hstep

end

/-! ## Invariants of histories -/

section
variable [Settable σ ι]

end
end Runner
end BusRegen
