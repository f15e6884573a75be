import Mathlib.Data.List.Induction
import BusRegen.Proofs.Loop.History
/-!
# Runs made by hand

What a run does to the regulator and to the stage can be done by hand, without a runner: the
regulator is reset, the steps are made one after the other, and the motor is released
(`Session.steps`, `Session.byHand`). The stage may be changed from outside between the steps.

A session is what a client does for one run, from the settings before its start to its end. The run
ends by itself, when its iterations are used up, or the client stops it (`Session.Fits`). On a
steady stage every step of it has an outcome (`Session.complete_steps`).
-/
namespace BusRegen

/-- What happens while a run goes on: the worker takes a turn, or something is done to the stage. -/
inductive Turn (ι : Type) where
  | tick
  | set (x : ι)

namespace Turn

variable {ι : Type}

def event : Turn ι → Event ι
  | tick => .tick
  | set x => .set x

def isTick : Turn ι → Bool
  | tick => true
  | set _ => false

def ticks (ts : List (Turn ι)) : Nat := ts.countP isTick

theorem ticks_append (ts : List (Turn ι)) (t : Turn ι) :
    ticks (ts ++ [t]) = ticks ts + if t.isTick then 1 else 0 := by
  simp [ticks, List.countP_append, List.countP_singleton]

end Turn

/-- Regulator and stage in the course of steps made by hand, with the outcomes of the steps. -/
structure Stepping (σ : Type) where
  regulator : Regulator
  stage : σ
  outcomes : List StepOutcome := []

/-- What a client does for one run. -/
structure Session (ι : Type) where
  /-- What is done to the stage before the start. -/
  before : List ι := []
  turns : List (Turn ι)
  /-- Whether the client stops the run, or only its last turn ends it. -/
  stops : Bool

namespace Session

variable {ι : Type}

def ticks (p : Session ι) : Nat := Turn.ticks p.turns

def events (p : Session ι) : List (Event ι) :=
  p.before.map .set ++ .start :: (p.turns.map Turn.event ++ if p.stops then [.stop] else [])

/-- The run goes on until its last turn, and ends then or is stopped after it. -/
structure Fits (l : LoopSettings) (p : Session ι) : Prop where
  more : ∀ ts t us, p.turns = ts ++ t :: us → Runner.isUsedUp l (Turn.ticks ts) = false
  ends : p.stops = true ∨ Runner.isUsedUp l p.ticks = true

end Session

variable {σ ι : Type} [PowerStage σ] [Settable σ ι]

/-! ## Steps by hand -/

namespace Stepping

def turn (dt : TickPeriod) (d : Stepping σ) : Turn ι → Stepping σ
  | .tick =>
    let t := d.regulator.step d.stage dt
    { regulator := t.regulator, stage := t.stage, outcomes := d.outcomes ++ t.outcome.toList }
  | .set x => { d with stage := Settable.set d.stage x }

def turns (dt : TickPeriod) (d : Stepping σ) (ts : List (Turn ι)) : Stepping σ :=
  ts.foldl (turn dt) d

/-- The output of the last step; there is none if the reading of that step failed. -/
def last? (d : Stepping σ) : Option Output := d.outcomes.getLast?.bind (·.output)

theorem turns_append (dt : TickPeriod) (d : Stepping σ) (ts : List (Turn ι)) (t : Turn ι) :
    d.turns dt (ts ++ [t]) = (d.turns dt ts).turn dt t := by
  rw [turns, List.foldl_append]
  rfl

end Stepping

namespace Session

/-- The steps of the run, for a regulator and a stage before the session. -/
def steps (dt : TickPeriod) (p : Session ι) (g : Regulator) (s : σ) : Stepping σ :=
  Stepping.turns dt { regulator := g.reset, stage := p.before.foldl Settable.set s } p.turns

/-- Regulator and stage after the session: the run is closed by a release. -/
def byHand (dt : TickPeriod) (x : Regulator × σ) (p : Session ι) : Regulator × σ :=
  let d := p.steps dt x.1 x.2
  (d.regulator, (PowerStage.release d.stage).2)

end Session

section
variable {P : σ → Prop}

omit [PowerStage σ] in
/-- The settings that are made on a stage keep it steady. -/
theorem set_all {Q : σ → Prop} (hQ : ∀ {s}, Q s → ∀ x : ι, Q (Settable.set s x)) {s : σ}
    (hs : Q s) (xs : List ι) : Q (xs.foldl Settable.set s) := by
  induction xs generalizing s with
  | nil => exact hs
  | cons x xs ih => exact ih (hQ hs x)

/-- On a steady stage every step is complete, and the regulator keeps the output of the step. -/
theorem Regulator.step_complete (hP : Steady P) {s : σ} (hs : P s) (g : Regulator)
    (dt : TickPeriod) :
    P (g.step s dt).stage ∧
      ∃ o, (g.step s dt).outcome = some o ∧ (g.step s dt).regulator.last = o.output := by
  have h := steps hP.toDependable hs g dt
  refine ⟨h.kept hP.toKept hs, ?_⟩
  generalize g.step s dt = d at h
  cases h with
  | crashed read => exact absurd (congrArg Prod.fst read) (hP.read_ne_crash hs)
  | failed | regulated => exact ⟨_, rfl, rfl⟩

/-- What is true of steps made by hand on a steady stage: each has an outcome, and the regulator
keeps the output of the last one. -/
structure Stepping.Complete (P : σ → Prop) (n : Nat) (d : Stepping σ) : Prop where
  steady : P d.stage
  length : d.outcomes.length = n
  last : d.regulator.last = d.last?

namespace Stepping

theorem Complete.turn {n : Nat} {d : Stepping σ} (hP : Steady P) (h : d.Complete P n)
    (dt : TickPeriod) (t : Turn ι) :
    (d.turn dt t).Complete P (n + if t.isTick then 1 else 0) := by
  cases t with
  | set x => exact ⟨hP.set h.steady x, h.length, h.last⟩
  | tick =>
    obtain ⟨hs, o, ho, hlast⟩ := Regulator.step_complete hP h.steady d.regulator dt
    refine ⟨hs, ?_, ?_⟩
    · simp [Stepping.turn, ho, h.length, Turn.isTick]
    · simp [Stepping.turn, last?, ho, hlast]

theorem Complete.turns {d : Stepping σ} (hP : Steady P) (h : d.Complete P 0) (dt : TickPeriod)
    (ts : List (Turn ι)) : (d.turns dt ts).Complete P (Turn.ticks ts) := by
  induction ts using List.reverseRecOn with
  | nil => exact h
  | append_singleton ts t ih =>
    rw [turns_append, Turn.ticks_append]
    exact ih.turn hP dt t

end Stepping

theorem Session.complete_steps (hP : Steady P) {s : σ} (hs : P s) (p : Session ι)
    (dt : TickPeriod) (g : Regulator) : (p.steps dt g s).Complete P p.ticks :=
  Stepping.Complete.turns hP ⟨set_all hP.set hs p.before, rfl, rfl⟩ dt p.turns

end

end BusRegen
