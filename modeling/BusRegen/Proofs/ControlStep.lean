import BusRegen.ControlStep
import BusRegen.Proofs.Stage.Dependable
/-!
# The ways for a control step to go

On a dependable stage a step has three ways to go (`Steps`): the reading crashes and nothing else
happens, the reading fails and the motor is released, or the regulator ticks on the reading and its
command is carried out. In the last two the step is complete, with one actuator call in it.
-/
namespace BusRegen

namespace Regulator

variable {σ ι : Type} [PowerStage σ]

inductive Steps (g : Regulator) (s : σ) (dt : TickPeriod) : Stepped σ → Prop where
  | crashed {s'} (read : PowerStage.readVoltage s = (.crash, s')) : Steps g s dt ⟨g, s', none⟩
  | failed {f s' reply t} (read : PowerStage.readVoltage s = (.fault f, s'))
      (call : PowerStage.release s' = (reply, t)) :
      Steps g s dt ⟨g.reset, PowerStage.resetWatchdog t,
        some { sensorFault := some f, actuatorFault := reply.fault? }⟩
  | regulated {v s' reply t} (read : PowerStage.readVoltage s = (.done v, s'))
      (call : PowerStage.drive s' (g.tick v dt).1.command = (reply, t)) :
      Steps g s dt ⟨(g.tick v dt).2, PowerStage.resetWatchdog t,
        some { output := some (g.tick v dt).1, actuatorFault := reply.fault? }⟩

theorem finishStep_eq (g : Regulator) {call : Reply Unit × σ} (h : call.1 ≠ .crash)
    (o : StepOutcome) :
    g.finishStep call o =
      ⟨g, PowerStage.resetWatchdog call.2, some { o with actuatorFault := call.1.fault? }⟩ := by
  unfold finishStep
  cases hc : call.1 with
  | crash => contradiction
  | done | fault => rfl

variable {P : σ → Prop} {s : σ}

theorem steps [Settable σ ι] (hP : Dependable P) (hs : P s) (g : Regulator) (dt : TickPeriod) :
    Steps g s dt (g.step s dt) := by
  have hread := hP.read hs
  unfold step
  split
  · rename_i s' hr
    exact .crashed hr
  · rename_i f s' hr
    rw [hr] at hread
    rw [finishStep_eq _ (hP.release_ne_crash hread)]
    exact .failed hr rfl
  · rename_i v s' hr
    rw [hr] at hread
    rw [finishStep_eq _ (hP.drive_ne_crash hread _)]
    exact .regulated hr rfl

theorem kept_finishStep (hP : Kept P) (g : Regulator) {call : Reply Unit × σ} (hs : P call.2)
    (o : StepOutcome) : P (g.finishStep call o).stage := by
  unfold finishStep
  split
  · exact hs
  · exact hP.watchdog hs

/-- No step leads out of the states of `P`, wherever it crashes. -/
theorem kept_step (hP : Kept P) (hs : P s) (g : Regulator) (dt : TickPeriod) :
    P (g.step s dt).stage := by
  have hread := hP.read hs
  unfold step
  split
  · rename_i s' hr
    rwa [hr] at hread
  · rename_i f s' hr
    rw [hr] at hread
    exact kept_finishStep hP _ (hP.release hread) _
  · rename_i v s' hr
    rw [hr] at hread
    exact kept_finishStep hP _ (hP.drive hread _) _

theorem Steps.kept (hP : Kept P) (hs : P s) {g : Regulator} {dt : TickPeriod} {d : Stepped σ}
    (h : Steps g s dt d) : P d.stage := by
  have hread := hP.read hs
  cases h with
  | crashed read => rwa [read] at hread
  | failed read call =>
    rw [read] at hread
    have hcall := hP.release hread
    rw [call] at hcall
    exact hP.watchdog hcall
  | @regulated v s' reply t read call =>
    rw [read] at hread
    have hcall := hP.drive hread (g.tick v dt).1.command
    rw [call] at hcall
    exact hP.watchdog hcall

end Regulator
end BusRegen
