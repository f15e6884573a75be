import BusRegen.Stage.Scripted
/-!
# Histories of a scripted stage

Whoever holds a scripted stage can read it, drive it, reset its watchdog and set it in any way, in
any order. `ScriptedStage.run` is the stage after such a history, and `ScriptedStage.fresh` a stage
with nothing behind it: one that was just created, or, at 48 V, one that was just reset.

What a stage promises is about what has been seen of it so far. An observer notes down what each
operation was and how it was answered; `observe` are the notes after a history. A relation between
stage and notes that every operation keeps holds after every history (`observe_induction`).
-/
namespace BusRegen.ScriptedStage

inductive Operation where
  | read
  | drive (k : Command)
  | resetWatchdog
  | set (x : StageSetting)

def perform (s : ScriptedStage) : Operation → ScriptedStage
  | .read => s.readVoltage.2
  | .drive k => (PowerStage.drive s k).2
  | .resetWatchdog => s.resetWatchdog
  | .set x => s.set x

/-- The stage after a history. -/
def run (s : ScriptedStage) (ops : List Operation) : ScriptedStage := ops.foldl perform s

/-- A stage with nothing behind it. -/
def fresh (voltage : Float) (capacity : Nat) : ScriptedStage :=
  { inputVoltage := voltage, log := .empty capacity }

theorem set_reset (s : ScriptedStage) : s.set .reset = fresh 48.0 s.log.capacity := rfl

/-! ## Notes on a history -/

section
variable {α : Type} (note : ScriptedStage → α → Operation → α)

/-- The notes after a history, if they were `x` before it. An operation is noted down by the stage
that it finds. -/
def observe (s : ScriptedStage) (x : α) : List Operation → α
  | [] => x
  | op :: ops => observe (s.perform op) (note s x op) ops

variable {note} {s : ScriptedStage} {x : α}

theorem observe_induction {P : ScriptedStage → α → Prop} (h : P s x)
    (step : ∀ s x op, P s x → P (s.perform op) (note s x op)) (ops : List Operation) :
    P (s.run ops) (observe note s x ops) := by
  induction ops generalizing s x with
  | nil => exact h
  | cons op ops ih => exact ih (step s x op h)

end

end BusRegen.ScriptedStage
