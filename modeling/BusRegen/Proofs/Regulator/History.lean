import BusRegen.Proofs.ValidConfig
/-!
# Histories of a regulator

Whoever holds a regulator can tick it with any reading and any period, reset it and clear its
telemetry, in any order. `Regulator.run` is the regulator after such a history.

A tick limits the integral and the output to bounds that come from the settings, and there is no
answer if the bounds are not in order (`tick?`). No operation changes the settings (`config_run`),
and valid settings have all bounds in order, so that every tick of every history has an answer
(`tick?_eq`, `run?_eq`).
-/
namespace BusRegen

namespace Pid

theorem update?_eq (s : Pid) (error : Float) (dt : TickPeriod) (g : Gains) {limit : Float}
    (h : 0 ≤ limit) : s.update? error dt g limit = some (s.update error dt g limit) :=
  if_pos (Scalar.neg_le_self h)

end Pid

namespace Regulator

inductive Operation where
  | tick (voltage : Float) (dt : TickPeriod)
  | reset
  | resetTelemetry

def perform (r : Regulator) : Operation → Regulator
  | .tick v dt => (r.tick v dt).2
  | .reset => r.reset
  | .resetTelemetry => r.resetTelemetry

/-- The regulator after a history. -/
def run (r : Regulator) (ops : List Operation) : Regulator := ops.foldl perform r

/-- An operation under settings that nobody has checked. -/
def perform? (r : Regulator) : Operation → Option Regulator
  | .tick v dt => (r.tick? v dt).map (·.2)
  | .reset => some r.reset
  | .resetTelemetry => some r.resetTelemetry

/-- The regulator after a history, if every tick of it has had an answer. -/
def run? (r : Regulator) (ops : List Operation) : Option Regulator := ops.foldlM perform? r

variable (r : Regulator)

/-! ## The settings stay -/

@[simp] theorem config_tick (v : Float) (dt : TickPeriod) : (r.tick v dt).2.config = r.config := rfl

@[simp] theorem config_reset : r.reset.config = r.config := rfl

@[simp] theorem config_resetTelemetry : r.resetTelemetry.config = r.config := rfl

theorem config_perform (op : Operation) : (r.perform op).config = r.config := by
  cases op with
  | tick v dt => exact r.config_tick v dt
  | reset => exact r.config_reset
  | resetTelemetry => exact r.config_resetTelemetry

/-- What every operation preserves holds after every history. -/
theorem run_induction {P : Regulator → Prop} {r : Regulator} (h : P r)
    (step : ∀ s op, P s → P (s.perform op)) (ops : List Operation) : P (r.run ops) := by
  induction ops generalizing r with
  | nil => exact h
  | cons op ops ih => exact ih (step r op h)

theorem config_run (ops : List Operation) : (r.run ops).config = r.config :=
  run_induction (P := fun s => s.config = r.config) rfl
    (fun s op h => (config_perform s op).trans h) ops

/-! ## The two kinds of ticks -/

variable {r} in
theorem respond_regulating {v : Float} (hz : Zone.classify v r.config = .regulating)
    (dt : TickPeriod) : r.respond v dt = r.regulate v dt := by
  simp only [respond, hz]

variable {r} in
theorem respond_released {v : Float} (hz : Zone.classify v r.config ≠ .regulating)
    (dt : TickPeriod) : r.respond v dt = (.released v (Zone.classify v r.config), .zero) := by
  unfold respond
  split
  · contradiction
  · rfl

@[simp] theorem voltage_tick (v : Float) (dt : TickPeriod) : (r.tick v dt).1.voltage = v := by
  by_cases hz : Zone.classify v r.config = .regulating
  · rw [tick, respond_regulating hz]; rfl
  · rw [tick, respond_released hz]; rfl

@[simp] theorem zone_tick (v : Float) (dt : TickPeriod) :
    (r.tick v dt).1.zone = Zone.classify v r.config := by
  by_cases hz : Zone.classify v r.config = .regulating
  · rw [tick, respond_regulating hz, hz]; rfl
  · rw [tick, respond_released hz]; rfl

theorem telemetry_tick (v : Float) (dt : TickPeriod) :
    (r.tick v dt).2.telemetry =
      r.telemetry.record (r.tick v dt).1.current v dt.seconds
        (!(r.tick v dt).1.command.isRelease) := rfl

/-! ## Ticks under valid settings -/

variable {r} (h : r.config.Valid)

include h in
theorem clamp?_output (x : Float) :
    Scalar.clamp? 0 r.config.maxOutputCurrent x =
      some (Scalar.clamp 0 r.config.maxOutputCurrent x) := by
  have hle : 0 ≤ r.config.maxOutputCurrent := Scalar.le_of_lt h.maxOutputCurrent_pos
  exact if_pos hle

include h in
theorem tick?_eq (v : Float) (dt : TickPeriod) : r.tick? v dt = some (r.tick v dt) := by
  unfold tick? tick
  by_cases hz : Zone.classify v r.config = .regulating
  · rw [respond_regulating hz]
    simp only [hz, Pid.update?_eq _ _ _ _ h.integralLimit_nonneg, clamp?_output h,
      Option.bind_eq_bind, Option.bind_some, regulate, pure]
  · rw [respond_released hz]
    dsimp only
    split
    · contradiction
    · rfl

include h in
theorem perform?_eq (op : Operation) : r.perform? op = some (r.perform op) := by
  cases op with
  | tick v dt => simp only [perform?, tick?_eq h, Option.map_some, perform]
  | reset | resetTelemetry => rfl

include h in
theorem run?_eq (ops : List Operation) : r.run? ops = some (r.run ops) := by
  induction ops generalizing r with
  | nil => rfl
  | cons op ops ih =>
    have h' : (r.perform op).config.Valid := by rwa [config_perform]
    simp only [run?, List.foldlM_cons, perform?_eq h, Option.bind_eq_bind, Option.bind_some]
    exact ih h'

end Regulator
end BusRegen
