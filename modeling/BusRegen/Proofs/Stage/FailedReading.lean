import BusRegen.Proofs.Regulator.AntiWindup
import BusRegen.Proofs.Stage.Rig
/-!
# A failed reading is a cutoff

A reading that fails is answered with a reset and a release, one at which the regulator cuts off
with a full tick: the zone releases the motor and clears the PID memory, and the telemetry takes the
tick in. Both lead to the same state but for what is remembered of the last tick, and for one tick
that the telemetry counts (`OneTickBehind`). The largest current stays as it is because it is never
below the zero of that tick, and no energy is added as no current was driven.

What comes after cannot tell the two apart, since answers depend on the PID memory alone: one answer
keeps the regulators that far apart and no farther (`OneTickBehind.answer`), and so does every
sequence of readings, failed ones among them. The stages may be set in different ways on the way, as
long as the readings are the same.
-/
namespace BusRegen

theorem Zone.classify_eq_safetyCutoff_iff (c : Config) (v : Float) :
    classify v c = .safetyCutoff ↔ v.isFinite = false ∨ v ≤ c.minimumVoltage := by
  unfold classify
  split
  · next h => exact ⟨fun _ => h, fun _ => rfl⟩
  · next h =>
    refine ⟨fun hz => ?_, fun hcut => absurd hcut h⟩
    split at hz <;> cases hz

namespace ScriptedStage

/-- All of a stage but what its sensor is going to give. -/
def withoutSensor (s : ScriptedStage) : ScriptedStage :=
  { s with inputVoltage := 0, script := [], sensorFails := false }

theorem withoutSensor_readVoltage (s : ScriptedStage) :
    s.readVoltage.2.withoutSensor =
      { s.withoutSensor with reads := s.withoutSensor.reads + 1 } := by
  have hread := s.read_readVoltage
  generalize s.readVoltage = r at hread ⊢
  cases hread <;> rfl

theorem withoutSensor_drive (s : ScriptedStage) (k : Command) :
    (PowerStage.drive s k).2.withoutSensor = (PowerStage.drive s.withoutSensor k).2 := by
  have hfails : s.withoutSensor.actuatorFails = s.actuatorFails := rfl
  rw [drive_eq, drive_eq, hfails]
  split <;> rfl

end ScriptedStage

/-- The second telemetry has counted one tick more than the first, and is the same otherwise. -/
structure Telemetry.OneTickLess (t t' : Telemetry) : Prop where
  ticks : t'.ticks = t.ticks + 1
  maxCurrent : t'.maxCurrent = t.maxCurrent
  energy : t'.energy = t.energy

theorem Telemetry.OneTickLess.record {t t' : Telemetry} (h : t.OneTickLess t')
    (output voltage dt : Float) (applied : Bool) :
    (t.record output voltage dt applied).OneTickLess (t'.record output voltage dt applied) := by
  obtain ⟨hticks, hmax, henergy⟩ := h
  unfold Telemetry.record
  rw [hticks, hmax, henergy]
  exact ⟨rfl, rfl, rfl⟩

namespace Regulator

/-- The telemetry never shows a largest current below zero. -/
theorem not_maxCurrent_neg {σ : Type} [PowerStage σ] {c : Config} {r : Regulator}
    (h : create c = .ok r) (us : List (Use σ)) : ¬ (r.after us).telemetry.maxCurrent < 0 := by
  have hzero : ¬ Telemetry.zero.maxCurrent < 0 := by decide
  refine after_induction (P := fun g => ¬ g.telemetry.maxCurrent < 0) (fun s op hs => ?_) ?_ us
  · cases op with
    | reset => exact hs
    | resetTelemetry => exact hzero
    | tick v dt =>
      rw [perform, telemetry_tick, Telemetry.record]
      dsimp only
      split
      · next hup => exact fun hneg => hs (Scalar.lt_of_lt_of_le hup (Scalar.le_of_lt hneg))
      · exact hs
  · obtain ⟨-, rfl⟩ := valid_of_create h
    exact hzero

/-- The regulators are alike and show the same, but the second has counted one tick more. -/
structure OneTickBehind (g g' : Regulator) : Prop extends Alike g g' where
  isActive : g.isActive = g'.isActive
  appliedCurrent : g.appliedCurrent = g'.appliedCurrent
  telemetry : g.telemetry.OneTickLess g'.telemetry

variable {g g' : Regulator}

theorem answer_cutoff {v : Float} (hz : Zone.classify v g.config = .safetyCutoff)
    (hmax : ¬ g.telemetry.maxCurrent < 0) (dt : TickPeriod) :
    (g.answer dt (some v)).call = .release ∧
      OneTickBehind (g.answer dt none).regulator (g.answer dt (some v)).regulator := by
  have htick : g.tick v dt = g.conclude v dt (.released v .safetyCutoff, .zero) := by
    rw [tick, respond, hz]
  unfold answer
  dsimp only
  rw [htick]
  exact ⟨rfl, ⟨rfl, rfl, rfl⟩, rfl, rfl, rfl, if_neg hmax, rfl⟩

/-- Whatever is read next is answered in the same way. -/
theorem OneTickBehind.answer (h : OneTickBehind g g') (dt : TickPeriod) (x : Option Float) :
    (g.answer dt x).output = (g'.answer dt x).output ∧
      (g.answer dt x).call = (g'.answer dt x).call ∧
        OneTickBehind (g.answer dt x).regulator (g'.answer dt x).regulator := by
  obtain ⟨halike, -, -, htelemetry⟩ := h
  cases x with
  | none => exact ⟨rfl, rfl, ⟨halike.config, halike.period, rfl⟩, rfl, rfl, htelemetry⟩
  | some v =>
    obtain ⟨hout, htwins⟩ := halike.tick v dt
    refine ⟨congrArg some hout, congrArg Output.command hout, htwins.toAlike, ?_, ?_, ?_⟩
    · exact congrArg (fun last => last.any (·.isRegulating)) htwins.last
    · exact congrArg (fun last => (last.map (·.appliedCurrent)).getD 0) htwins.last
    · change (g.tick v dt).2.telemetry.OneTickLess (g'.tick v dt).2.telemetry
      rw [telemetry_tick, telemetry_tick, hout]
      exact htelemetry.record _ _ _ _

theorem OneTickBehind.answers (h : OneTickBehind g g') (xs : List (Option Float × TickPeriod)) :
    g.answers xs = g'.answers xs ∧ OneTickBehind (g.afterReadings xs) (g'.afterReadings xs) := by
  induction xs generalizing g g' with
  | nil => exact ⟨rfl, h⟩
  | cons x xs ih =>
    obtain ⟨x, dt⟩ := x
    obtain ⟨hout, hcall, hnext⟩ := h.answer dt x
    obtain ⟨hanswers, hafter⟩ := ih hnext
    refine ⟨?_, hafter⟩
    rw [Regulator.answers, Regulator.answers, hout, hcall, hnext.pid, hanswers]

/-- Stages that differ in their sensors only are told the same, and so they stay. -/
theorem withoutSensor_step {s s' : ScriptedStage} (h : s.withoutSensor = s'.withoutSensor)
    {dt : TickPeriod} (hcall : (g.answer dt s.reading).call = (g'.answer dt s'.reading).call) :
    (g.step s dt).stage.withoutSensor = (g'.step s' dt).stage.withoutSensor := by
  have hread : s.readVoltage.2.withoutSensor = s'.readVoltage.2.withoutSensor := by
    rw [ScriptedStage.withoutSensor_readVoltage, ScriptedStage.withoutSensor_readVoltage, h]
  have hdrive : (PowerStage.drive s.readVoltage.2 (g.answer dt s.reading).call).2.withoutSensor =
      (PowerStage.drive s'.readVoltage.2 (g'.answer dt s'.reading).call).2.withoutSensor := by
    rw [ScriptedStage.withoutSensor_drive, ScriptedStage.withoutSensor_drive, hread, hcall]
  rw [step_eq, step_eq]
  exact congrArg ScriptedStage.resetWatchdog hdrive

/-- Rigs with the same readings cannot be told apart if their regulators cannot. -/
theorem OneTickBehind.rigs {t t' : Rig} (h : t.regulator.OneTickBehind t'.regulator)
    {as as' : List Rig.Act} (hread : t.readings as = t'.readings as') :
    t.answers as = t'.answers as' ∧
      (t.after as).regulator.OneTickBehind (t'.after as').regulator := by
  obtain ⟨hanswers, hafter⟩ := h.answers (t.readings as)
  rw [Rig.answers_eq, Rig.answers_eq, Rig.regulator_after, Rig.regulator_after, ← hread, hanswers]
  exact ⟨rfl, hafter⟩

/-- **A failed reading is handled like a cutoff.** In any state that a regulator with valid settings
can come into, and on stages that differ in their sensors only, a step whose reading fails and one
at whose reading the regulator cuts off release the motor and lead to the same state but for one
tick of the telemetry. From then on the two copies go through any steps and settings of their stages
with the same readings: all outputs, calls and PID memories are the same, and the telemetry stays
one tick apart. -/
theorem failed_reading_cutoff (c : Config) (us : List (Use ScriptedStage))
    (hc : c.check = .ok ()) :
    (∀ v, Zone.classify v c = .safetyCutoff ↔ v.isFinite = false ∨ v ≤ c.minimumVoltage) ∧
    ∃ r, create c = .ok r ∧ ∀ (s s' : ScriptedStage) (v : Float) (dt : TickPeriod),
      s.withoutSensor = s'.withoutSensor → s.reading = none → s'.reading = some v →
      Zone.classify v c = .safetyCutoff →
        let g := r.after us
        let t := Rig.act ⟨g, s⟩ (.step dt)
        let t' := Rig.act ⟨g, s'⟩ (.step dt)
        g.stepCalls s dt = [.release] ∧ g.stepCalls s' dt = [.release] ∧
          t.stage.withoutSensor = t'.stage.withoutSensor ∧
          t.stage.watchdogResets = t'.stage.watchdogResets ∧
          t.regulator.OneTickBehind t'.regulator ∧
          ∀ as as' : List Rig.Act, t.readings as = t'.readings as' →
            t.answers as = t'.answers as' ∧
              (t.after as).regulator.OneTickBehind (t'.after as').regulator := by
  have hv : c.Valid := (Config.check_eq_ok_iff c).1 hc
  obtain ⟨r, hr⟩ : ∃ r, create c = .ok r := ⟨_, create_eq hv⟩
  refine ⟨Zone.classify_eq_safetyCutoff_iff c, r, hr, fun s s' v dt hs hread hread' hz => ?_⟩
  have hmax := not_maxCurrent_neg hr us
  have hconfig : (r.after us).config = c := (config_after r us).1.trans (new_of_create hr).1
  rw [← hconfig] at hz
  intro g t t'
  obtain ⟨hcall, hbehind⟩ := answer_cutoff hz hmax dt
  have hregulators : t.regulator.OneTickBehind t'.regulator := by
    rw [Rig.regulator_act_step, Rig.regulator_act_step, hread, hread']
    exact hbehind
  have hstages : t.stage.withoutSensor = t'.stage.withoutSensor := by
    refine withoutSensor_step hs ?_
    rw [hread, hread', hcall]
    rfl
  refine ⟨?_, ?_, hstages, congrArg (·.watchdogResets) hstages, hregulators,
    fun as as' hsame => hregulators.rigs hsame⟩
  · rw [stepCalls_eq, hread]
    rfl
  · rw [stepCalls_eq, hread', hcall]

/-- After a tick at 46 V one copy has a failed reading and the other one of 44 V. Then both read
46 V and have a failed reading. -/
theorem failed_reading_cutoff_standard :
    let dt : TickPeriod := ⟨({} : Config).tickPeriod, rfl⟩
    let s : ScriptedStage := { sensorFails := true }
    let s' : ScriptedStage := { inputVoltage := 44 }
    let as : List Rig.Act :=
      [.set (.sensorFails false), .set (.voltage 46), .step dt, .set (.sensorFails true), .step dt]
    let as' : List Rig.Act :=
      [.set (.voltage 46), .step dt, .set (.sensorFails true), .step dt]
    ({} : Config).check = .ok () ∧ ∃ r, create {} = .ok r ∧
      let g := r.after ([.operation (.tick 46 dt)] : List (Use ScriptedStage))
      let t := Rig.act ⟨g, s⟩ (.step dt)
      let t' := Rig.act ⟨g, s'⟩ (.step dt)
      s.withoutSensor = s'.withoutSensor ∧ s.reading = none ∧ s'.reading = some 44 ∧
        Zone.classify 44 {} = .safetyCutoff ∧ t.readings as = t'.readings as' ∧
        t.regulator.OneTickBehind t'.regulator ∧ t.answers as = t'.answers as' := by
  intro dt s s' as as'
  have hc : ({} : Config).check = .ok () := rfl
  have hz : Zone.classify 44 {} = .safetyCutoff := by decide +kernel
  obtain ⟨-, r, hr, hcutoff⟩ := failed_reading_cutoff {} [.operation (.tick 46 dt)] hc
  refine ⟨hc, r, hr, ?_⟩
  obtain ⟨-, -, -, -, hbehind, hlater⟩ := hcutoff s s' 44 dt rfl rfl rfl hz
  cases hr
  intro g t t'
  have hsame : t.readings as = t'.readings as' := by decide +kernel
  exact ⟨rfl, rfl, rfl, hz, hsame, hbehind, (hlater as as' hsame).1⟩

end Regulator
end BusRegen
