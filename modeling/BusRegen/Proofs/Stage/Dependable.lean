import BusRegen.Proofs.Stage.Calls
/-!
# Stages under outside influence

A stage is not the runner's alone: voltages are put on it, failures are switched on and off while a
loop runs. `Settable` names what can be done to a stage from outside; for a scripted stage these are
its settings, for a crashing stage also the reading at which it crashes.

A call that crashes ends its caller wherever that is, so the promises of a runner hold under a
condition on the stage. `Kept P` says that no call leads out of the states `P`, `Dependable P` that
no setting does either, and that in these states no actuator call crashes. Refused calls and
crashing readings are allowed. `Steady P` says in addition that no reading crashes.
-/
namespace BusRegen

/-- What can be done to a stage from outside. -/
class Settable (σ : Type) (ι : outParam Type) where
  set : σ → ι → σ

instance : Settable ScriptedStage StageSetting := ⟨ScriptedStage.set⟩

namespace CrashingStage

inductive Setting where
  | stage (x : StageSetting)
  | crashAtRead (k : Option Nat)

def apply (s : CrashingStage) : Setting → CrashingStage
  | .stage x => s.set x
  | .crashAtRead k => { s with crashAtRead := k }

instance : Settable CrashingStage Setting := ⟨apply⟩

end CrashingStage

section
variable {σ ι : Type} [PowerStage σ] {P : σ → Prop} {s : σ}

structure Kept (P : σ → Prop) : Prop where
  read : ∀ {s}, P s → P (PowerStage.readVoltage s).2
  apply : ∀ {s}, P s → ∀ x, P (PowerStage.applyCurrent s x).2
  release : ∀ {s}, P s → P (PowerStage.release s).2
  watchdog : ∀ {s}, P s → P (PowerStage.resetWatchdog s)

/-- The promise that a run can end: in these states no release crashes. -/
structure Releasable (P : σ → Prop) : Prop extends Kept P where
  release_ne_crash : ∀ {s}, P s → (PowerStage.release s).1 ≠ .crash

structure Dependable [Settable σ ι] (P : σ → Prop) : Prop extends Kept P where
  set : ∀ {s}, P s → ∀ x, P (Settable.set s x)
  apply_ne_crash : ∀ {s}, P s → ∀ x, (PowerStage.applyCurrent s x).1 ≠ .crash
  release_ne_crash : ∀ {s}, P s → (PowerStage.release s).1 ≠ .crash

structure Steady [Settable σ ι] (P : σ → Prop) : Prop extends Dependable P where
  read_ne_crash : ∀ {s}, P s → (PowerStage.readVoltage s).1 ≠ .crash

theorem Dependable.releasable [Settable σ ι] (h : Dependable P) : Releasable P where
  toKept := h.toKept
  release_ne_crash := h.release_ne_crash

theorem Kept.drive (h : Kept P) (hs : P s) (k : Command) : P (PowerStage.drive s k).2 := by
  cases k with
  | apply x => exact h.apply hs x
  | release => exact h.release hs

theorem Dependable.drive_ne_crash [Settable σ ι] (h : Dependable P) (hs : P s) (k : Command) :
    (PowerStage.drive s k).1 ≠ .crash := by
  cases k with
  | apply x => exact h.apply_ne_crash hs x
  | release => exact h.release_ne_crash hs

end

namespace ScriptedStage

theorem drive_ne_crash (s : ScriptedStage) (k : Command) : (PowerStage.drive s k).1 ≠ .crash := by
  rw [drive_eq]
  split <;> simp [refusal]

theorem release_ne_crash (s : ScriptedStage) : s.release.1 ≠ .crash := s.drive_ne_crash .release

/-- No actuator call of a scripted stage crashes. -/
theorem dependable : Dependable fun _ : ScriptedStage => True where
  read _ := trivial
  apply _ _ := trivial
  release _ := trivial
  watchdog _ := trivial
  set _ _ := trivial
  apply_ne_crash _ x := drive_ne_crash _ (.apply x)
  release_ne_crash _ := release_ne_crash _

theorem readVoltage_ne_crash (s : ScriptedStage) : s.readVoltage.1 ≠ .crash := by
  have hread := s.read_readVoltage
  generalize s.readVoltage = r at hread ⊢
  cases hread <;> simp

theorem steady : Steady fun _ : ScriptedStage => True where
  toDependable := dependable
  read_ne_crash _ := readVoltage_ne_crash _

end ScriptedStage

namespace CrashingStage

theorem crashOnRelease_readVoltage (s : CrashingStage) :
    s.readVoltage.2.crashOnRelease = s.crashOnRelease := by
  unfold readVoltage
  dsimp only
  split <;> rfl

theorem crashOnRelease_release (s : CrashingStage) :
    s.release.2.crashOnRelease = s.crashOnRelease := by
  unfold release
  split <;> rfl

theorem crashOnRelease_apply (s : CrashingStage) (x : Setting) :
    (s.apply x).crashOnRelease = s.crashOnRelease := by
  cases x <;> rfl

theorem release_ne_crash {s : CrashingStage} (h : s.crashOnRelease = false) :
    s.release.1 ≠ .crash := by
  simp only [release, h, Bool.false_eq_true, if_false]
  exact s.stage.release_ne_crash

/-- A crashing stage crashes in readings only, unless it was made to crash in releases. -/
theorem dependable : Dependable fun s : CrashingStage => s.crashOnRelease = false where
  read h := (crashOnRelease_readVoltage _).trans h
  apply h _ := h
  release h := (crashOnRelease_release _).trans h
  watchdog h := h
  set h x := (crashOnRelease_apply _ x).trans h
  apply_ne_crash _ x := ScriptedStage.drive_ne_crash _ (.apply x)
  release_ne_crash h := release_ne_crash h

end CrashingStage
end BusRegen
