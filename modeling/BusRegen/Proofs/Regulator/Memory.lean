import BusRegen.ControlStep
import BusRegen.Proofs.Regulator.History
/-!
# What a regulator remembers

The outputs of a regulator depend on its past through the PID memory alone. Two regulators with the
same settings and the same PID memory (`Alike`) answer a tick with the same output, and after it
they differ in nothing but their telemetry (`Alike.tick`). So they answer every further sequence of
ticks in the same way (`Alike.sameFuture`).

Whatever leads out of the regulating zone clears that memory: a tick in another zone, a reset, a
control step whose reading fails (`Use.Erases`). After it the memory is that of a new regulator,
whatever the history (`alike_after`).
-/
namespace BusRegen

namespace Regulator

/-! ## Regulators that differ in what is only shown -/

/-- The regulators differ in their telemetry and in their last output at most. -/
structure Alike (r r' : Regulator) : Prop where
  config : r.config = r'.config
  period : r.period = r'.period
  pid : r.pid = r'.pid

/-- The regulators differ in their telemetry at most. -/
structure Twins (r r' : Regulator) : Prop extends Alike r r' where
  last : r.last = r'.last

variable {r r' r'' : Regulator}

theorem Alike.symm (h : Alike r r') : Alike r' r := ⟨h.config.symm, h.period.symm, h.pid.symm⟩

theorem Alike.trans (h : Alike r r') (h' : Alike r' r'') : Alike r r'' :=
  ⟨h.config.trans h'.config, h.period.trans h'.period, h.pid.trans h'.pid⟩

theorem Alike.respond (h : Alike r r') (v : Float) (dt : TickPeriod) :
    r.respond v dt = r'.respond v dt := by
  unfold Regulator.respond regulate
  rw [h.config, h.pid]

/-- Regulators that are alike have the same output, and are twins from then on. -/
theorem Alike.tick (h : Alike r r') (v : Float) (dt : TickPeriod) :
    (r.tick v dt).1 = (r'.tick v dt).1 ∧ Twins (r.tick v dt).2 (r'.tick v dt).2 := by
  have hd := h.respond v dt
  unfold Regulator.tick conclude
  rw [hd]
  exact ⟨rfl, ⟨h.config, h.period, rfl⟩, rfl⟩

theorem twins_reset (hc : r.config = r'.config) (hp : r.period = r'.period) :
    Twins r.reset r'.reset :=
  ⟨⟨hc, hp, rfl⟩, rfl⟩

/-! ## Sequences of ticks -/

/-- The output of each tick, with the PID memory after it. -/
def responses (r : Regulator) : List (Float × TickPeriod) → List (Output × Pid)
  | [] => []
  | (v, dt) :: ts =>
    let t := r.tick v dt
    (t.1, t.2.pid) :: t.2.responses ts

/-- The regulator after a sequence of ticks. -/
def afterTicks (r : Regulator) (ts : List (Float × TickPeriod)) : Regulator :=
  r.run (ts.map fun t => .tick t.1 t.2)

/-- Every sequence of ticks has the same outputs on both regulators and leaves the same PID memory
after each tick; from the first tick on they differ in their telemetry only. -/
structure SameFuture (r r' : Regulator) : Prop where
  now : Alike r r'
  responses : ∀ ts, r.responses ts = r'.responses ts
  later : ∀ ts, ts ≠ [] → Twins (r.afterTicks ts) (r'.afterTicks ts)

theorem Alike.responses (h : Alike r r') (ts : List (Float × TickPeriod)) :
    r.responses ts = r'.responses ts := by
  induction ts generalizing r r' with
  | nil => rfl
  | cons t ts ih =>
    obtain ⟨v, dt⟩ := t
    obtain ⟨hout, htwins⟩ := h.tick v dt
    unfold Regulator.responses
    dsimp only
    rw [hout, htwins.pid, ih htwins.toAlike]

theorem Twins.afterTicks (h : Twins r r') (ts : List (Float × TickPeriod)) :
    Twins (r.afterTicks ts) (r'.afterTicks ts) := by
  induction ts generalizing r r' with
  | nil => exact h
  | cons t ts ih => exact ih (h.toAlike.tick t.1 t.2).2

theorem Alike.sameFuture (h : Alike r r') : SameFuture r r' := by
  refine ⟨h, h.responses, fun ts hts => ?_⟩
  cases ts with
  | nil => exact absurd rfl hts
  | cons t ts => exact (h.tick t.1 t.2).2.afterTicks ts

/-! ## Control steps -/

section
variable {σ : Type} [PowerStage σ]

theorem regulator_finishStep (r : Regulator) (call : Reply Unit × σ) (o : StepOutcome) :
    (r.finishStep call o).regulator = r := by
  unfold finishStep
  split <;> rfl

/-- What a step does to the regulator depends on the reading alone. -/
theorem regulator_step (r : Regulator) (s : σ) (dt : TickPeriod) :
    (r.step s dt).regulator =
      match (PowerStage.readVoltage s).1 with
      | .crash => r
      | .fault _ => r.reset
      | .done v => (r.tick v dt).2 := by
  unfold step
  obtain ⟨reply, s'⟩ := PowerStage.readVoltage s
  cases reply with
  | crash => rfl
  | fault f | done v => exact regulator_finishStep _ _ _

theorem config_step (r : Regulator) (s : σ) (dt : TickPeriod) :
    (r.step s dt).regulator.config = r.config ∧ (r.step s dt).regulator.period = r.period := by
  rw [regulator_step]
  split <;> exact ⟨rfl, rfl⟩

/-- Stage and outcome at the end of a step do not depend on the regulator. -/
theorem finishStep_congr (r r' : Regulator) (call : Reply Unit × σ) (o : StepOutcome) :
    (r.finishStep call o).stage = (r'.finishStep call o).stage ∧
      (r.finishStep call o).outcome = (r'.finishStep call o).outcome := by
  unfold finishStep
  split <;> exact ⟨rfl, rfl⟩

/-- On a stage in one state, twins make the same step. -/
theorem Twins.step (h : Twins r r') (s : σ) (dt : TickPeriod) :
    (r.step s dt).stage = (r'.step s dt).stage ∧ (r.step s dt).outcome = (r'.step s dt).outcome ∧
      Twins (r.step s dt).regulator (r'.step s dt).regulator := by
  unfold Regulator.step
  obtain ⟨reply, s'⟩ := PowerStage.readVoltage s
  cases reply with
  | crash => exact ⟨rfl, rfl, h⟩
  | fault f =>
    obtain ⟨hs, ho⟩ := finishStep_congr r.reset r'.reset (PowerStage.release s')
      { sensorFault := some f }
    refine ⟨hs, ho, ?_⟩
    dsimp only
    rw [regulator_finishStep, regulator_finishStep]
    exact twins_reset h.config h.period
  | done v =>
    obtain ⟨hout, htwins⟩ := h.toAlike.tick v dt
    dsimp only
    rw [hout]
    obtain ⟨hs, ho⟩ := finishStep_congr (r.tick v dt).2 (r'.tick v dt).2
      (PowerStage.drive s' (r'.tick v dt).1.command) { output := some (r'.tick v dt).1 }
    refine ⟨hs, ho, ?_⟩
    rw [regulator_finishStep, regulator_finishStep]
    exact htwins

end

/-! ## Histories that end outside the regulating zone -/

/-- What is done with a regulator: one of its operations, or a control step on a power stage in the
given state. -/
inductive Use (σ : Type) where
  | operation (op : Operation)
  | step (s : σ) (dt : TickPeriod)

section
variable {σ : Type} [PowerStage σ]

def use (r : Regulator) : Use σ → Regulator
  | .operation op => r.perform op
  | .step s dt => (r.step s dt).regulator

/-- The regulator after a history with control steps. -/
def after (r : Regulator) (us : List (Use σ)) : Regulator := us.foldl use r

/-- Whether a use leads out of the regulating zone: a tick in another zone, a reset, or a control
step whose reading fails or is in another zone. -/
def Use.Erases (c : Config) : Use σ → Prop
  | .operation (.tick v _) => Zone.classify v c ≠ .regulating
  | .operation .reset => True
  | .operation .resetTelemetry => False
  | .step s _ =>
    match (PowerStage.readVoltage s).1 with
    | .crash => False
    | .fault _ => True
    | .done v => Zone.classify v c ≠ .regulating

theorem config_use (r : Regulator) (u : Use σ) :
    (r.use u).config = r.config ∧ (r.use u).period = r.period := by
  cases u with
  | operation op => cases op <;> exact ⟨rfl, rfl⟩
  | step s dt => exact config_step r s dt

theorem config_after (r : Regulator) (us : List (Use σ)) :
    (r.after us).config = r.config ∧ (r.after us).period = r.period := by
  induction us generalizing r with
  | nil => exact ⟨rfl, rfl⟩
  | cons u us ih =>
    obtain ⟨hc, hp⟩ := config_use r u
    obtain ⟨hc', hp'⟩ := ih (r.use u)
    exact ⟨hc'.trans hc, hp'.trans hp⟩

theorem pid_tick_of_released {v : Float} (hz : Zone.classify v r.config ≠ .regulating)
    (dt : TickPeriod) : (r.tick v dt).2.pid = .zero := by
  rw [Regulator.tick, respond_released hz]
  rfl

theorem pid_use {u : Use σ} (hu : u.Erases r.config) : (r.use u).pid = .zero := by
  cases u with
  | operation op =>
    cases op with
    | tick v dt => exact pid_tick_of_released hu dt
    | reset => rfl
    | resetTelemetry => exact hu.elim
  | step s dt =>
    simp only [Use.Erases] at hu
    simp only [use, regulator_step]
    split at hu
    · exact hu.elim
    · rfl
    · exact pid_tick_of_released hu dt

theorem new_of_create {c : Config} (h : create c = .ok r) : r.config = c ∧ r.pid = .zero := by
  obtain ⟨-, rfl⟩ := valid_of_create h
  exact ⟨rfl, rfl⟩

/-- After such a history nothing is left but the settings. -/
theorem alike_after {r : Regulator} (hr : r.pid = .zero) (us : List (Use σ)) {u : Use σ}
    (hu : u.Erases r.config) : Alike (r.after (us ++ [u])) r := by
  have hlast : r.after (us ++ [u]) = (r.after us).use u := List.foldl_append
  obtain ⟨hc, hp⟩ := config_after r us
  obtain ⟨hc', hp'⟩ := config_use (r.after us) u
  rw [hlast]
  exact ⟨hc'.trans hc, hp'.trans hp, (pid_use (hc.symm ▸ hu)).trans hr.symm⟩

end
end Regulator
end BusRegen
