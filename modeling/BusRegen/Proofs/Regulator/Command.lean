import BusRegen.Proofs.Regulator.History
import BusRegen.Proofs.Scalar.Zero
/-!
# What a regulator may command

The PID law works on arbitrary gains and on whatever an earlier tick has left in the integral and in
the last error, so its raw output can be anything: negative, beyond every limit, an infinity or no
number at all. What reaches the motor is decided after the law. The output is limited to
`0 … maxOutputCurrent`, which lets nothing through but numbers in that range and NaNs; it is
commanded only if it is greater than the deadband, which no NaN is; and the law is asked only for a
reading strictly between the minimum and the threshold.

So nothing has to be known of the regulator's memory. `command_tick` says which command a tick
gives, `safe_command` what is true of such a command under valid settings, and `command_safe` that
this is so for every tick of every history, none of which is without an answer.
-/
namespace BusRegen

namespace Zone

theorem classify_eq_regulating_iff {c : Config} (h : c.Valid) (v : Float) :
    classify v c = regulating ↔
      v.isFinite = true ∧ c.minimumVoltage < v ∧ v < c.thresholdVoltage := by
  have hmin : c.minimumVoltage.isNaN = false := Scalar.isNaN_of_isFinite (h.finite .minimumVoltage)
  have hthr : c.thresholdVoltage.isNaN = false :=
    Scalar.isNaN_of_isFinite (h.finite .thresholdVoltage)
  unfold classify
  by_cases hv : v.isFinite = true
  · have hnum := Scalar.isNaN_of_isFinite hv
    rw [← Scalar.not_le_iff hnum hmin, ← Scalar.not_le_iff hthr hnum]
    simp only [hv, Bool.true_eq_false, false_or, true_and]
    split
    · simp_all
    · split <;> simp_all
  · simp [hv]

/-- A reading between two finite voltages is finite. -/
theorem isRegulating_classify {c : Config} (h : c.Valid) (v : Float) :
    (classify v c).isRegulating = (c.minimumVoltage < v && v < c.thresholdVoltage : Bool) := by
  have hiff := classify_eq_regulating_iff h v
  rw [isRegulating, Bool.eq_iff_iff, beq_iff_eq, hiff, Bool.and_eq_true, decide_eq_true_iff,
    decide_eq_true_iff]
  refine ⟨fun hv => hv.2, fun hv => ⟨?_, hv⟩⟩
  exact Scalar.isFinite_of_mem (h.finite .minimumVoltage) (h.finite .thresholdVoltage)
    (Scalar.le_of_lt hv.1) (Scalar.le_of_lt hv.2)

end Zone

namespace Regulator

/-- The output of the PID law at a reading, within its limits. -/
def demand (r : Regulator) (v : Float) (dt : TickPeriod) : Float :=
  Scalar.clamp 0 r.config.maxOutputCurrent
    (r.pid.update (r.config.targetVoltage - v) dt r.config.gains r.config.integralLimit).1.raw

/-- When a current is to be commanded at a reading, if the PID law gives the output `u`. -/
def CallsForCurrent (c : Config) (v u : Float) : Prop :=
  v.isFinite = true ∧ c.minimumVoltage < v ∧ v < c.thresholdVoltage ∧ c.deadbandCurrent < u

/-- What is promised of the command at a reading, if the PID law gives the output `u`. -/
structure SafeCommand (c : Config) (v u : Float) (k : Command) : Prop where
  apply_iff : ∀ x, k = .apply x ↔ CallsForCurrent c v u ∧ x = -u
  release_iff : k = .release ↔ ¬ CallsForCurrent c v u
  bounds : ∀ x, k = .apply x →
    -c.maxOutputCurrent ≤ x ∧ x < -c.deadbandCurrent ∧ -c.deadbandCurrent ≤ 0

theorem commandFor_eq_apply_iff (c : Config) (u x : Float) :
    commandFor c u = .apply x ↔ c.deadbandCurrent < u ∧ x = -u := by
  unfold commandFor
  split <;> rename_i hu <;> simp [hu, eq_comm]

theorem command_tick_regulating {r : Regulator} {v : Float}
    (hz : Zone.classify v r.config = .regulating) (dt : TickPeriod) :
    (r.tick v dt).1.command = commandFor r.config (r.demand v dt) := by
  rw [tick, respond_regulating hz]
  rfl

theorem command_tick_released {r : Regulator} {v : Float}
    (hz : Zone.classify v r.config ≠ .regulating) (dt : TickPeriod) :
    (r.tick v dt).1.command = .release := by
  rw [tick, respond_released hz]
  rfl

/-- Current is commanded in the regulating zone only, and there if the demand is worth driving. -/
theorem command_tick {r : Regulator} (h : r.config.Valid) (v : Float) (dt : TickPeriod)
    (x : Float) :
    (r.tick v dt).1.command = .apply x ↔
      CallsForCurrent r.config v (r.demand v dt) ∧ x = -r.demand v dt := by
  have hzone := Zone.classify_eq_regulating_iff h v
  by_cases hz : Zone.classify v r.config = .regulating
  · obtain ⟨hfin, hmin, hthr⟩ := hzone.1 hz
    rw [command_tick_regulating hz, commandFor_eq_apply_iff]
    simp only [CallsForCurrent, hfin, hmin, hthr, true_and]
  · rw [command_tick_released hz]
    constructor
    · intro hc; cases hc
    · rintro ⟨⟨hfin, hmin, hthr, -⟩, -⟩
      exact absurd (hzone.2 ⟨hfin, hmin, hthr⟩) hz

/-- A demand beyond the deadband is a number, and one within the limit. -/
theorem demand_le {r : Regulator} (h : r.config.Valid) {v : Float} {dt : TickPeriod}
    (hd : r.config.deadbandCurrent < r.demand v dt) :
    r.demand v dt ≤ r.config.maxOutputCurrent := by
  have hnum : (r.demand v dt).isNaN = false := ((Scalar.lt_iff _ _).1 hd).2.1
  unfold demand at hnum ⊢
  refine (Scalar.clamp_mem (Scalar.le_of_lt h.maxOutputCurrent_pos) ?_).2
  -- A NaN would have come through the limits and met the deadband.
  rw [Bool.eq_false_iff]
  intro hnan
  rw [Scalar.clamp_of_isNaN hnan, hnan] at hnum
  cases hnum

/-- The motor current of a tick is within the limit, whichever way it flows. -/
theorem magnitude_tick_le {r : Regulator} (h : r.config.Valid) (v : Float) (dt : TickPeriod) :
    (r.tick v dt).1.command.magnitude ≤ r.config.maxOutputCurrent := by
  cases hk : (r.tick v dt).1.command with
  | release => exact Scalar.le_of_lt h.maxOutputCurrent_pos
  | apply x =>
    obtain ⟨⟨-, -, -, hd⟩, rfl⟩ := (command_tick h v dt x).1 hk
    have hpos : 0 < r.demand v dt := Scalar.lt_of_le_of_lt h.deadbandCurrent_nonneg hd
    rw [Command.magnitude, Scalar.abs_neg_of_pos hpos]
    exact demand_le h hd

/-- A current is commanded in the regulating zone only. -/
theorem regulating_of_applied {r : Regulator} {v : Float} {dt : TickPeriod}
    (h : (r.tick v dt).1.command.isRelease = false) : Zone.classify v r.config = .regulating := by
  by_contra hz
  rw [command_tick_released hz] at h
  cases h

/-- A tick either has an output beyond the deadband and commands it, or commands nothing. -/
theorem tick_cases {r : Regulator} (h : r.config.Valid) (v : Float) (dt : TickPeriod) :
    let o := (r.tick v dt).1
    (r.config.deadbandCurrent < o.current ∧ o.appliedCurrent = o.current ∧
      o.command.isRelease = false) ∨
    (¬ r.config.deadbandCurrent < o.current ∧ o.appliedCurrent = 0 ∧
      o.command.isRelease = true) := by
  intro o
  have hdead : ¬ r.config.deadbandCurrent < 0 :=
    (Scalar.not_lt_iff (Scalar.isNaN_of_isFinite (h.finite .deadbandCurrent))
      Scalar.isNaN_zero).2 h.deadbandCurrent_nonneg
  by_cases hz : Zone.classify v r.config = .regulating
  · have hcur : o.current = r.demand v dt := by
      change (r.tick v dt).1.current = _
      rw [tick, respond_regulating hz]
      rfl
    have hcom : o.command = commandFor r.config (r.demand v dt) := command_tick_regulating hz dt
    rw [hcur, Output.appliedCurrent, hcom, commandFor]
    by_cases hd : r.config.deadbandCurrent < r.demand v dt
    · left
      have hpos : 0 < r.demand v dt := Scalar.lt_of_le_of_lt h.deadbandCurrent_nonneg hd
      rw [if_pos hd]
      exact ⟨hd, Scalar.abs_neg_of_pos hpos, rfl⟩
    · right
      rw [if_neg hd]
      exact ⟨hd, rfl, rfl⟩
  · have ho : o = .released v (Zone.classify v r.config) := by
      change (r.tick v dt).1 = _
      rw [tick, respond_released hz]
      rfl
    rw [ho]
    exact .inr ⟨hdead, rfl, rfl⟩

theorem safe_command {r : Regulator} (h : r.config.Valid) (v : Float) (dt : TickPeriod) :
    SafeCommand r.config v (r.demand v dt) (r.tick v dt).1.command := by
  have happly := command_tick h v dt
  refine ⟨happly, ?_, ?_⟩
  · cases hk : (r.tick v dt).1.command with
    | apply x =>
      obtain ⟨hcalls, -⟩ := (happly x).1 hk
      simp [hcalls]
    | release =>
      refine ⟨fun _ hcalls => ?_, fun _ => rfl⟩
      rw [(happly _).2 ⟨hcalls, rfl⟩] at hk
      cases hk
  · intro x hx
    obtain ⟨⟨-, -, -, hd⟩, rfl⟩ := (happly x).1 hx
    exact ⟨(Scalar.neg_le_neg_iff _ _).2 (demand_le h hd), (Scalar.neg_lt_neg_iff _ _).2 hd,
      (Scalar.neg_nonpos_iff _).2 h.deadbandCurrent_nonneg⟩

/-- **Command safety.** A regulator can be built from settings that pass the check. Whatever it has
been through, every tick has an answer, as both pairs of bounds are in order, and the command of the
tick is a safe one. -/
theorem command_safe (c : Config) (hc : c.check = .ok ()) (ops : List Operation) :
    -c.integralLimit ≤ c.integralLimit ∧ 0 ≤ c.maxOutputCurrent ∧
      ∃ r, create c = .ok r ∧ r.run? ops = some (r.run ops) ∧
        ∀ v dt, (r.run ops).tick? v dt = some ((r.run ops).tick v dt) ∧
          SafeCommand c v ((r.run ops).demand v dt) ((r.run ops).tick v dt).1.command := by
  have hv : c.Valid := (Config.check_eq_ok_iff c).1 hc
  refine ⟨Scalar.neg_le_self hv.integralLimit_nonneg, Scalar.le_of_lt hv.maxOutputCurrent_pos,
    _, create_eq hv, run?_eq hv ops, ?_⟩
  intro v dt
  generalize hr : Regulator.run _ ops = r
  have hconf : r.config = c := by rw [← hr, config_run]
  have hv' : r.config.Valid := by rwa [hconf]
  have hsafe := safe_command hv' v dt
  rw [hconf] at hsafe
  exact ⟨tick?_eq hv' v dt, hsafe⟩

/-- The standard settings pass the check, so they keep a regulator safe that has seen a drop, a
reading that is no number and a reset. -/
theorem command_safe_standard :
    ({} : Config).check = .ok () ∧
      ∃ r, create {} = .ok r ∧
        let s := r.run [.tick 46.0 r.period, .tick Scalar.nan r.period, .reset]
        ∀ v dt, s.tick? v dt = some (s.tick v dt) ∧
          SafeCommand {} v (s.demand v dt) (s.tick v dt).1.command := by
  obtain ⟨-, -, r, hr, -, hsafe⟩ := command_safe {} rfl
    [.tick 46.0 ⟨({} : Config).tickPeriod, rfl⟩, .tick Scalar.nan ⟨({} : Config).tickPeriod, rfl⟩,
      .reset]
  cases hr
  exact ⟨rfl, _, rfl, hsafe⟩

end Regulator
end BusRegen
