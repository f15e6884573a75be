import BusRegen.Proofs.Regulator.Command
import BusRegen.Proofs.Stage.Counters
import BusRegen.Proofs.Stage.Rig
import BusRegen.Proofs.Stage.Scripted
/-!
# Complete steps under failures

On a scripted stage every control step is complete: one reading, one actuator call, one watchdog
reset, whatever fails. `CompleteStep` is the account of such a step. If the actuator call is
accepted, the drive agrees with what the regulator says of itself, so that it does not matter which
calls were refused before; if the call is refused, the drive is left alone, and the regulator does
not notice.

The agreement is one of floating-point numbers, as a motor without a current has a zero of either
sign. Otherwise the current of a command is a demand with its sign turned, and the demand is a
number above zero, so what the stage has got and what the regulator reports differ in their sign
alone (`agrees_answer`).
-/
namespace BusRegen

/-- The actuator call of a step with this outcome. -/
def StepOutcome.call (o : StepOutcome) : Command :=
  match o.output with
  | none => .release
  | some out => out.command

namespace Regulator

/-- What is promised of a control step from the regulator `g` and the stage `s`. -/
structure CompleteStep (g : Regulator) (s : ScriptedStage) (dt : TickPeriod)
    (d : Stepped ScriptedStage) (o : StepOutcome) : Prop where
  outcome : d.outcome = some o
  reads : d.stage.reads = s.reads + 1
  watchdogResets : d.stage.watchdogResets = s.watchdogResets + 1
  calls : g.stepCalls s dt = [o.call]
  sensorFault : o.sensorFault = s.readVoltage.1.fault?
  sensorFault_isSome : o.sensorFault.isSome = s.sensorFails
  actuatorFault : o.actuatorFault = (PowerStage.drive s.readVoltage.2 o.call).1.fault?
  actuatorFault_isSome : o.actuatorFault.isSome = s.actuatorFails
  output : o.output.isSome = s.reading.isSome
  last : d.regulator.last = o.output
  accepted : o.actuatorFault = none →
    (d.stage.appliedCurrent == -d.regulator.appliedCurrent) = true ∧
      (d.stage.motorReleased = true ↔
        o.output = none ∨ ∃ out, o.output = some out ∧ out.command = .release)
  refused : o.actuatorFault ≠ none →
    ScriptedStage.Undriven s d.stage ∧
      d.regulator = (g.step { s with actuatorFails := false } dt).regulator

/-- What a regulator reports of its last command is its current with the sign turned. -/
theorem agrees_answer {g : Regulator} (h : g.config.Valid) (dt : TickPeriod) (x : Option Float) :
    ((g.answer dt x).call.current == -(g.answer dt x).regulator.appliedCurrent) = true := by
  cases x with
  | none =>
    change (0 == -(0 : Float)) = true
    decide
  | some v =>
    change ((g.tick v dt).1.command.current == -(g.tick v dt).1.command.magnitude) = true
    cases hk : (g.tick v dt).1.command with
    | release => decide
    | apply y =>
      obtain ⟨⟨-, -, -, hd⟩, rfl⟩ := (command_tick h v dt y).1 hk
      have hpos : 0 < g.demand v dt := Scalar.lt_of_le_of_lt h.deadbandCurrent_nonneg hd
      rw [Command.magnitude, Scalar.abs_neg_of_pos hpos, Command.current, Scalar.beq_iff,
        Scalar.isNaN_neg]
      exact ⟨((Scalar.lt_iff _ _).1 hpos).2.1, ((Scalar.lt_iff _ _).1 hpos).2.1, rfl⟩

section
variable (g : Regulator) (dt : TickPeriod) (x : Option Float)

theorem last_answer : (g.answer dt x).regulator.last = (g.answer dt x).output := by
  cases x <;> rfl

theorem isSome_output_answer : (g.answer dt x).output.isSome = x.isSome := by
  cases x <;> rfl

theorem isRelease_answer :
    (g.answer dt x).call.isRelease = true ↔ (g.answer dt x).output = none ∨
      ∃ out, (g.answer dt x).output = some out ∧ out.command = .release := by
  cases x with
  | none => exact ⟨fun _ => .inl rfl, fun _ => rfl⟩
  | some v =>
    change (g.tick v dt).1.command.isRelease = true ↔
      some (g.tick v dt).1 = none ∨ ∃ out, some (g.tick v dt).1 = some out ∧ out.command = .release
    cases hk : (g.tick v dt).1.command <;> simp [hk, Command.isRelease]

end

/-- A call that is accepted leaves the drive as the regulator reports it. -/
theorem accepted_answer {g : Regulator} (h : g.config.Valid) {t : ScriptedStage}
    (ht : t.actuatorFails = false) (dt : TickPeriod) (x : Option Float) :
    let a := g.answer dt x
    let t' := (PowerStage.drive t a.call).2
    (t'.appliedCurrent == -a.regulator.appliedCurrent) = true ∧
      (t'.motorReleased = true ↔
        a.output = none ∨ ∃ out, a.output = some out ∧ out.command = .release) := by
  intro a t'
  obtain ⟨-, hcurrent, hreleased⟩ := ScriptedStage.driven_drive ht a.call
  constructor
  · rw [hcurrent]
    exact agrees_answer h dt x
  · rw [hreleased]
    exact isRelease_answer g dt x

/-- Whether the actuator fails does not show in a reading. -/
theorem reading_of_actuator (s : ScriptedStage) (b : Bool) :
    ScriptedStage.reading { s with actuatorFails := b } = s.reading := by
  unfold ScriptedStage.reading ScriptedStage.readVoltage
  cases s.sensorFails <;> cases s.script <;> rfl

theorem completeStep {g : Regulator} (h : g.config.Valid) (s : ScriptedStage) (dt : TickPeriod) :
    ∃ o, CompleteStep g s dt (g.step s dt) o := by
  let a := g.answer dt s.reading
  let s' := s.readVoltage.2
  let call := PowerStage.drive s' a.call
  have hfails : s'.actuatorFails = s.actuatorFails := s.actuatorFails_readVoltage
  have hfault : call.1.fault?.isSome = s.actuatorFails := (s'.fault_drive a.call).trans hfails
  obtain ⟨hreads, hresets, -⟩ := s.grown_readVoltage
  obtain ⟨n, ⟨hreads', hresets', -⟩, -⟩ := s'.grown_drive a.call
  let o : StepOutcome :=
    { output := a.output, sensorFault := s.readVoltage.1.fault?, actuatorFault := call.1.fault? }
  have hcall : o.call = a.call := by
    dsimp only [StepOutcome.call, o, a]
    cases s.reading <;> rfl
  rw [step_eq]
  refine ⟨o, ?_⟩
  constructor
  case outcome => rfl
  case reads => exact hreads'.trans hreads
  case watchdogResets => exact congrArg (· + 1) (hresets'.trans hresets)
  case calls => rw [stepCalls_eq, hcall]
  case sensorFault => rfl
  case sensorFault_isSome => exact s.fault_readVoltage
  case actuatorFault => rw [hcall]
  case actuatorFault_isSome => exact hfault
  case output => exact isSome_output_answer g dt _
  case last => exact last_answer g dt _
  case accepted =>
    intro (hnone : call.1.fault? = none)
    have hworks : s'.actuatorFails = false := by
      rw [hfails, ← hfault, hnone]
      rfl
    exact accepted_answer h hworks dt _
  case refused =>
    intro hsome
    have hrefuses : s'.actuatorFails = true := by
      rw [hfails, ← hfault, Option.isSome_iff_ne_none]
      exact hsome
    have hstage : call.2 = s' := congrArg Prod.snd (ScriptedStage.drive_refused hrefuses a.call)
    constructor
    · change ScriptedStage.Undriven s call.2.resetWatchdog
      rw [hstage]
      exact s.undriven_readVoltage.resetWatchdog
    · rw [regulator_step_eq, reading_of_actuator s false]

/-- **One complete step under any failures.** A regulator with valid settings makes control steps on
a stage, and between them the stage is set in any way: every step is complete. -/
theorem every_step_complete (c : Config) (hc : c.check = .ok ()) :
    ∃ r, create c = .ok r ∧ ∀ (s : ScriptedStage) (as : List Rig.Act) (dt : TickPeriod),
      let t := Rig.after ⟨r, s⟩ as
      ∃ o, CompleteStep t.regulator t.stage dt (t.regulator.step t.stage dt) o := by
  have hv : c.Valid := (Config.check_eq_ok_iff c).1 hc
  refine ⟨_, create_eq hv, fun s as dt => completeStep ?_ _ dt⟩
  rw [Rig.config_after]
  exact hv

/-- A current is applied at 46 V. When the actuator fails after that, at 45.5 V, the next step is
complete without the stage taking up its command. -/
theorem every_step_complete_failing :
    let dt : TickPeriod := ⟨({} : Config).tickPeriod, rfl⟩
    ({} : Config).check = .ok () ∧ ∃ r, create {} = .ok r ∧
      let t := Rig.after ⟨r, { script := [46, 45.5] }⟩ [.step dt, .set (.actuatorFails true)]
      t.stage.appliedCurrent < 0 ∧
        ∃ o, CompleteStep t.regulator t.stage dt (t.regulator.step t.stage dt) o ∧
          o.output.isSome = true ∧ o.actuatorFault.isSome = true := by
  intro dt
  have hc : ({} : Config).check = .ok () := rfl
  obtain ⟨r, hr, hsteps⟩ := every_step_complete {} hc
  refine ⟨hc, r, hr, ?_⟩
  cases hr
  intro t
  obtain ⟨o, ho⟩ := hsteps { script := [46, 45.5] } [.step dt, .set (.actuatorFails true)] dt
  refine ⟨by decide +kernel, o, ho, ?_, ?_⟩
  · rw [ho.output]
    decide +kernel
  · rw [ho.actuatorFault_isSome]
    decide +kernel

end Regulator
end BusRegen
