import BusRegen.Proofs.ControlStep
/-!
# Stages with a record of their calls

`Recorded σ` is a stage together with the actuator calls made to it, one after the other and whether
they were accepted or not. The record is for proofs: it says which calls were made in a history on a
stage that keeps no account of its own.

A recorded stage answers every call as the stage itself does, so the record changes nothing about a
step (`plain_step`), and what is proved of it is true of the calls that are made without one.
-/
namespace BusRegen

structure Recorded (σ : Type) where
  stage : σ
  calls : List Command := []

namespace Recorded

variable {σ ι : Type} [PowerStage σ] [Settable σ ι]

/-- The answer of the stage to a call, with `ks` on the record. -/
def answer (s : Recorded σ) (ks : List Command) {α : Type} (call : Reply α × σ) :
    Reply α × Recorded σ :=
  (call.1, { stage := call.2, calls := s.calls ++ ks })

instance : PowerStage (Recorded σ) where
  readVoltage s := s.answer [] (PowerStage.readVoltage s.stage)
  applyCurrent s x := s.answer [.apply x] (PowerStage.applyCurrent s.stage x)
  release s := s.answer [.release] (PowerStage.release s.stage)
  resetWatchdog s := { s with stage := PowerStage.resetWatchdog s.stage }

instance : Settable (Recorded σ) ι := ⟨fun s x => { s with stage := Settable.set s.stage x }⟩

theorem readVoltage_eq (s : Recorded σ) :
    PowerStage.readVoltage s = s.answer [] (PowerStage.readVoltage s.stage) := rfl

theorem release_eq (s : Recorded σ) :
    PowerStage.release s = s.answer [.release] (PowerStage.release s.stage) := rfl

theorem drive_eq (s : Recorded σ) (k : Command) :
    PowerStage.drive s k = s.answer [k] (PowerStage.drive s.stage k) := by
  cases k <;> rfl

theorem kept {P : σ → Prop} (hP : Kept P) : Kept fun s : Recorded σ => P s.stage where
  read h := hP.read h
  apply h x := hP.apply h x
  release h := hP.release h
  watchdog h := hP.watchdog h

theorem releasable {P : σ → Prop} (hP : Releasable P) :
    Releasable fun s : Recorded σ => P s.stage where
  toKept := kept hP.toKept
  release_ne_crash h := hP.release_ne_crash h

theorem dependable {P : σ → Prop} (hP : Dependable P) :
    Dependable fun s : Recorded σ => P s.stage where
  toKept := kept hP.toKept
  set h x := hP.set h x
  apply_ne_crash h x := hP.apply_ne_crash h x
  release_ne_crash h := hP.release_ne_crash h

/-- A complete step has put its actuator call on the record, an incomplete one nothing. -/
theorem calls_steps {g : Regulator} {s : Recorded σ} {dt : TickPeriod} {d : Stepped (Recorded σ)}
    (h : g.Steps s dt d) :
    ∃ ks, d.stage.calls = s.calls ++ ks ∧ ks.length = d.outcome.toList.length := by
  cases h with
  | @crashed s' read =>
    have hs' := congrArg Prod.snd read
    rw [readVoltage_eq] at hs'
    exact ⟨[], congrArg calls hs'.symm, rfl⟩
  | @failed f s' reply t read call =>
    have hs' := congrArg (·.2.calls) read
    have ht := congrArg (·.2.calls) call
    simp only [readVoltage_eq, release_eq, answer, List.append_nil] at hs' ht
    exact ⟨[.release], by rw [hs']; exact ht.symm, rfl⟩
  | @regulated v s' reply t read call =>
    have hs' := congrArg (·.2.calls) read
    have ht := congrArg (·.2.calls) call
    simp only [readVoltage_eq, drive_eq, answer, List.append_nil] at hs' ht
    exact ⟨[(g.tick v dt).1.command], by rw [hs']; exact ht.symm, rfl⟩

end Recorded

namespace Regulator

variable {σ : Type} [PowerStage σ]

theorem plain_step (g : Regulator) (s : Recorded σ) (dt : TickPeriod) :
    g.step s.stage dt =
      ⟨(g.step s dt).regulator, (g.step s dt).stage.stage, (g.step s dt).outcome⟩ := by
  unfold step
  rw [Recorded.readVoltage_eq]
  cases PowerStage.readVoltage s.stage with
  | mk reply t =>
    cases reply with
    | crash => rfl
    | fault f =>
      simp only [Recorded.answer, Recorded.release_eq, finishStep]
      split <;> rfl
    | done v =>
      simp only [Recorded.answer, Recorded.drive_eq, finishStep]
      split <;> rfl

end Regulator
end BusRegen
