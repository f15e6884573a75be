import BusRegen.Proofs.Regulator.Memory
import BusRegen.Proofs.Stage.Recorded
/-!
# A regulator on a scripted stage

All that a regulator learns from its stage is what the readings give. `Answer` is what it makes of
one of them, be it a voltage or a failure: its output, the actuator call that it asks for, and the
regulator that is left. A control step on a scripted stage carries that answer out and ends with a
watchdog reset, whether the call is accepted or not (`step_eq`, `stepCalls_eq`).

A `Rig` is a regulator with its stage. Between the control steps the stage may be set in any way:
voltages, a script, failures of sensor and actuator. What the regulator does in such a run is given
by the readings of the run (`Rig.regulator_after`, `Rig.answers_eq`).
-/
namespace BusRegen

namespace Reply

def value? {α : Type} : Reply α → Option α
  | done x => some x
  | _ => none

end Reply

namespace ScriptedStage

/-- The voltage that is read next, if the sensor does not fail. -/
def reading (s : ScriptedStage) : Option Float := s.readVoltage.1.value?

end ScriptedStage

namespace Regulator

/-- What a regulator makes of a reading. -/
structure Answer where
  output : Option Output
  call : Command
  regulator : Regulator

/-- A failed reading is answered with a reset and a release. -/
def answer (g : Regulator) (dt : TickPeriod) : Option Float → Answer
  | none => ⟨none, .release, g.reset⟩
  | some v => ⟨some (g.tick v dt).1, (g.tick v dt).1.command, (g.tick v dt).2⟩

/-- The actuator calls of a control step, whether they are accepted or not. -/
def stepCalls {σ : Type} [PowerStage σ] (g : Regulator) (s : σ) (dt : TickPeriod) : List Command :=
  (g.step (⟨s, []⟩ : Recorded σ) dt).stage.calls

section
variable (g : Regulator) (s : ScriptedStage) (dt : TickPeriod)

/-- A control step carries out the answer to its reading. -/
theorem step_eq :
    g.step s dt =
      let a := g.answer dt s.reading
      let call := PowerStage.drive s.readVoltage.2 a.call
      { regulator := a.regulator
        stage := call.2.resetWatchdog
        outcome := some
          { output := a.output
            sensorFault := s.readVoltage.1.fault?
            actuatorFault := call.1.fault? } } := by
  have hcrash := s.readVoltage_ne_crash
  have hread : PowerStage.readVoltage s = s.readVoltage := rfl
  unfold step ScriptedStage.reading
  rw [hread]
  revert hcrash
  obtain ⟨reply, s'⟩ := s.readVoltage
  intro hcrash
  cases reply with
  | crash => exact absurd rfl hcrash
  | fault f => exact finishStep_eq _ s'.release_ne_crash _
  | done v =>
    exact finishStep_eq _ (ScriptedStage.dependable.drive_ne_crash (s := s') trivial _) _

theorem regulator_step_eq : (g.step s dt).regulator = (g.answer dt s.reading).regulator := by
  rw [step_eq]

theorem stepCalls_eq : g.stepCalls s dt = [(g.answer dt s.reading).call] := by
  have hcrash := s.readVoltage_ne_crash
  have hread : PowerStage.readVoltage (⟨s, []⟩ : Recorded ScriptedStage) =
      Recorded.answer ⟨s, []⟩ [] s.readVoltage := rfl
  have hdependable := Recorded.dependable ScriptedStage.dependable
  unfold stepCalls step ScriptedStage.reading
  rw [hread]
  revert hcrash
  obtain ⟨reply, s'⟩ := s.readVoltage
  intro hcrash
  cases reply with
  | crash => exact absurd rfl hcrash
  | fault f =>
    dsimp only [Recorded.answer]
    rw [finishStep_eq _ (hdependable.release_ne_crash trivial)]
    rfl
  | done v =>
    dsimp only [Recorded.answer]
    rw [finishStep_eq _ (hdependable.drive_ne_crash trivial _), Recorded.drive_eq]
    rfl

end

/-- The regulator after a sequence of readings. -/
def afterReadings (g : Regulator) (xs : List (Option Float × TickPeriod)) : Regulator :=
  xs.foldl (fun g x => (g.answer x.2 x.1).regulator) g

/-- Output and call of the answer to each reading, with the PID memory after it. -/
def answers (g : Regulator) :
    List (Option Float × TickPeriod) → List (Option Output × Command × Pid)
  | [] => []
  | (x, dt) :: xs =>
    let a := g.answer dt x
    (a.output, a.call, a.regulator.pid) :: a.regulator.answers xs

end Regulator

/-! ## Runs -/

structure Rig where
  regulator : Regulator
  stage : ScriptedStage

namespace Rig

/-- A control step, or something that is done to the stage from outside. -/
inductive Act where
  | step (dt : TickPeriod)
  | set (x : StageSetting)

def act (r : Rig) : Act → Rig
  | .step dt =>
    let d := r.regulator.step r.stage dt
    ⟨d.regulator, d.stage⟩
  | .set x => { r with stage := r.stage.set x }

def after (r : Rig) (as : List Act) : Rig := as.foldl act r

/-- The readings of a run, each with the period of its step. -/
def readings (r : Rig) : List Act → List (Option Float × TickPeriod)
  | [] => []
  | .set x :: as => (r.act (.set x)).readings as
  | .step dt :: as => (r.stage.reading, dt) :: (r.act (.step dt)).readings as

/-- Output and actuator calls of each step of a run, with the PID memory after it. -/
def answers (r : Rig) : List Act → List (Option Output × List Command × Pid)
  | [] => []
  | .set x :: as => (r.act (.set x)).answers as
  | .step dt :: as =>
    let d := r.regulator.step r.stage dt
    (d.outcome.bind (·.output), r.regulator.stepCalls r.stage dt, d.regulator.pid) ::
      (r.act (.step dt)).answers as

theorem regulator_act_step (r : Rig) (dt : TickPeriod) :
    (r.act (.step dt)).regulator = (r.regulator.answer dt r.stage.reading).regulator :=
  r.regulator.regulator_step_eq r.stage dt

theorem regulator_after (r : Rig) (as : List Act) :
    (r.after as).regulator = r.regulator.afterReadings (r.readings as) := by
  induction as generalizing r with
  | nil => rfl
  | cons a as ih =>
    cases a with
    | set x => exact ih _
    | step dt =>
      have hnext := ih (r.act (.step dt))
      rw [regulator_act_step] at hnext
      exact hnext

theorem answers_eq (r : Rig) (as : List Act) :
    r.answers as = (r.regulator.answers (r.readings as)).map fun a => (a.1, [a.2.1], a.2.2) := by
  induction as generalizing r with
  | nil => rfl
  | cons a as ih =>
    cases a with
    | set x => exact ih _
    | step dt =>
      have hnext := ih (r.act (.step dt))
      rw [regulator_act_step] at hnext
      rw [answers, hnext, Regulator.stepCalls_eq, Regulator.step_eq]
      rfl

theorem config_after (r : Rig) (as : List Act) :
    (r.after as).regulator.config = r.regulator.config := by
  induction as generalizing r with
  | nil => rfl
  | cons a as ih =>
    refine (ih _).trans ?_
    cases a with
    | set x => rfl
    | step dt => exact (Regulator.config_step _ _ _).1

end Rig
end BusRegen
