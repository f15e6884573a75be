import BusRegen.Proofs.Regulator.Integral
import BusRegen.Proofs.Scalar.Bounds
import BusRegen.Stage.Scripted
/-!
# The integral neither winds up nor turns round

The PID law by itself keeps the integral within its limit on either side, whatever errors, periods
and gains it is given, as long as the errors are numbers and the limits are finite and not negative
(`Pid.calls?_within`). In a regulator the integral has one side only: under valid settings the
target is above every reading in the regulating zone, so no error is negative there and no tick
takes anything off the integral. A step may be an infinity, where the error or its product with the
period overflows, or a zero, where it underflows; either way the sum is not below zero, and neither
is what the limit leaves of it (`Pid.OneSided.update`).

`anti_windup` says both of all histories, those of a regulator with control steps in them whose
readings may fail or crash.
-/
namespace BusRegen

namespace Pid

variable {s : Pid} {limit : Float}

/-! ## The law by itself -/

/-- What one tick of the law is given. -/
structure Call where
  error : Float
  dt : TickPeriod
  gains : Gains
  limit : Float

/-- The error is a number, and the limit a bound. -/
structure Call.Proper (k : Call) : Prop where
  error : k.error.isNaN = false
  limit_finite : k.limit.isFinite = true
  limit_nonneg : 0 ≤ k.limit

/-- The memory after some ticks of the law, if each of them has had an answer. -/
def calls? (s : Pid) (ks : List Call) : Option Pid :=
  ks.foldlM (fun s k => (s.update? k.error k.dt k.gains k.limit).map (·.2)) s

theorem calls?_concat (s : Pid) (ks : List Call) (k : Call) :
    s.calls? (ks ++ [k]) =
      (s.calls? ks).bind fun t => (t.update? k.error k.dt k.gains k.limit).map (·.2) := by
  simp [calls?]

theorem within_call (hs : s.accumulator.isFinite = true) {k : Call} (hk : k.Proper) :
    ∃ t, (s.update? k.error k.dt k.gains k.limit).map (·.2) = some t ∧ t.Within k.limit := by
  refine ⟨_, ?_, within_update hs hk.limit_nonneg hk.error k.dt k.gains⟩
  rw [update?_eq s k.error k.dt k.gains hk.limit_nonneg, Option.map_some]

/-- After every tick of the law the integral is within the limit of that tick. -/
theorem calls?_within (hs : s.accumulator.isFinite = true) (ks : List Call) (k : Call)
    (h : ∀ k' ∈ ks ++ [k], k'.Proper) : ∃ t, s.calls? (ks ++ [k]) = some t ∧ t.Within k.limit := by
  have hk : k.Proper := h k (by simp)
  induction ks using List.reverseRecOn generalizing k with
  | nil =>
    rw [calls?_concat]
    exact within_call hs hk
  | append_singleton ks last ih =>
    have hlast : last.Proper := h last (by simp)
    have hbefore : ∀ k' ∈ ks ++ [last], k'.Proper := fun k' hk' => h k' (List.mem_append_left _ hk')
    obtain ⟨t, ht, hw⟩ := ih last hbefore hlast
    rw [calls?_concat, ht]
    exact within_call (hw.isFinite hlast.limit_finite) hk

/-! ## The integral of a regulator -/

/-- The integral is within its limit and not below zero. -/
structure OneSided (limit : Float) (s : Pid) : Prop where
  nonneg : 0 ≤ s.accumulator
  upper : s.accumulator ≤ limit

theorem OneSided.within (h : s.OneSided limit) (hlimit : 0 ≤ limit) : s.Within limit where
  upper := h.upper
  lower := by
    obtain ⟨-, hnum, hrank⟩ := (Scalar.le_iff 0 limit).1 hlimit
    obtain ⟨-, hacc, hnonneg⟩ := (Scalar.le_iff 0 _).1 h.nonneg
    rw [Scalar.le_iff, Scalar.isNaN_neg, Scalar.rank_neg]
    rw [Scalar.rank_zero] at hrank hnonneg
    exact ⟨hnum, hacc, by omega⟩

theorem oneSided_zero (h : 0 ≤ limit) : OneSided limit .zero :=
  ⟨by decide, h⟩

/-- An error that is not negative takes nothing off the integral. -/
theorem OneSided.update (h : s.OneSided limit) (hfin : limit.isFinite = true) (hlimit : 0 ≤ limit)
    {error : Float} (herror : 0 ≤ error) (dt : TickPeriod) (g : Gains) :
    (s.update error dt g limit).2.OneSided limit := by
  obtain ⟨q, -, hdt⟩ := dt.hasValue
  have hstep : 0 ≤ error * dt.seconds := Scalar.zero_le_mul herror hdt
  have hsum : 0 ≤ s.accumulator + error * dt.seconds := Scalar.zero_le_add h.nonneg hstep
  have hnum : error.isNaN = false := ((Scalar.le_iff 0 error).1 herror).2.1
  have hw := within_update ((h.within hlimit).isFinite hfin) hlimit hnum dt g
  exact ⟨Scalar.clamp_nonneg ((Scalar.neg_nonpos_iff limit).2 hlimit) hlimit hsum, hw.upper⟩

/-- The target is above every reading in the regulating zone. -/
theorem error_nonneg {c : Config} (h : c.Valid) {v : Float}
    (hz : Zone.classify v c = .regulating) : 0 ≤ c.targetVoltage - v := by
  obtain ⟨hv, -, hthr⟩ := (Zone.classify_eq_regulating_iff h v).1 hz
  have hle : v ≤ c.targetVoltage :=
    Scalar.le_of_lt (Scalar.lt_of_lt_of_le hthr (Scalar.le_of_lt h.threshold_lt))
  exact Scalar.zero_le_sub (h.finite .targetVoltage) hv hle

theorem OneSided.update_error {c : Config} (hs : s.OneSided c.integralLimit) (h : c.Valid)
    {v : Float} (hz : Zone.classify v c = .regulating) (dt : TickPeriod) :
    (s.update (c.targetVoltage - v) dt c.gains c.integralLimit).2.OneSided c.integralLimit :=
  hs.update (h.finite .integralLimit) h.integralLimit_nonneg (error_nonneg h hz) dt c.gains

end Pid

namespace Regulator

variable {r : Regulator}

/-- What holds of an empty PID memory, and is preserved by the law at every reading of the
regulating zone. -/
structure PidInvariant (c : Config) (Q : Pid → Prop) : Prop where
  zero : Q .zero
  update : ∀ {s v} (dt : TickPeriod), Q s → Zone.classify v c = .regulating →
    Q (s.update (c.targetVoltage - v) dt c.gains c.integralLimit).2

/-- The settings are these, and the PID memory is as `Q` says. -/
structure Keeps (c : Config) (Q : Pid → Prop) (r : Regulator) : Prop where
  config : r.config = c
  pid : Q r.pid

/-- An operation changes the PID memory by a tick of the law at a reading of the regulating zone, or
clears it. -/
theorem Keeps.perform {c : Config} {Q : Pid → Prop} (hQ : PidInvariant c Q) (r : Regulator)
    (op : Operation) (h : r.Keeps c Q) : (r.perform op).Keeps c Q := by
  obtain ⟨rfl, hq⟩ := h
  refine ⟨config_perform r op, ?_⟩
  cases op with
  | tick v dt =>
    rw [Regulator.perform]
    by_cases hz : Zone.classify v r.config = .regulating
    · rw [tick, respond_regulating hz]
      exact hQ.update dt hq hz
    · rw [pid_tick_of_released hz]
      exact hQ.zero
  | reset => exact hQ.zero
  | resetTelemetry => exact hq

theorem keeps_of_create {c : Config} {Q : Pid → Prop} (hQ : PidInvariant c Q)
    (h : create c = .ok r) : r.Keeps c Q := by
  obtain ⟨-, rfl⟩ := valid_of_create h
  exact ⟨rfl, hQ.zero⟩

theorem oneSided_invariant {c : Config} (h : c.Valid) :
    PidInvariant c (Pid.OneSided c.integralLimit) where
  zero := Pid.oneSided_zero h.integralLimit_nonneg
  update dt hs hz := hs.update_error h hz dt

section
variable {σ : Type} [PowerStage σ]

/-- What ticks, resets and cleared telemetry preserve, control steps preserve too: to the regulator
a step is a tick, a reset or nothing. -/
theorem use_induction {P : Regulator → Prop} (perform : ∀ s op, P s → P (s.perform op))
    {r : Regulator} (h : P r) (u : Use σ) : P (r.use u) := by
  cases u with
  | operation op => exact perform r op h
  | step s dt =>
    rw [use, regulator_step]
    split
    · exact h
    · exact perform r .reset h
    · exact perform r (.tick _ dt) h

theorem after_induction {P : Regulator → Prop} (perform : ∀ s op, P s → P (s.perform op))
    {r : Regulator} (h : P r) (us : List (Use σ)) : P (r.after us) := by
  induction us generalizing r with
  | nil => exact h
  | cons u us ih => exact ih (use_induction perform h u)

end

/-- **Anti-windup.** Whatever a regulator with valid settings has been through, its integral is a
number from zero to its limit. The law alone, given numbers as errors and bounds as limits, has an
answer to every call, and after each of them the integral is within the limit of that call. -/
theorem anti_windup {σ : Type} [PowerStage σ] :
    (∀ (c : Config) (us : List (Use σ)), c.check = .ok () →
      ∃ r, create c = .ok r ∧
        (r.after us).pid.accumulator.isNaN = false ∧ 0 ≤ (r.after us).pid.accumulator ∧
          (r.after us).pid.accumulator ≤ c.integralLimit) ∧
    (∀ (s : Pid) (ks : List Pid.Call) (k : Pid.Call), s.accumulator.isFinite = true →
      (∀ k' ∈ ks ++ [k], k'.Proper) →
        ∃ t, s.calls? (ks ++ [k]) = some t ∧ t.accumulator.abs ≤ k.limit) := by
  constructor
  · intro c us hc
    have hv : c.Valid := (Config.check_eq_ok_iff c).1 hc
    have hnew := create_eq hv
    have hinv := oneSided_invariant hv
    have hafter := after_induction (Keeps.perform hinv) (keeps_of_create hinv hnew) us
    refine ⟨_, hnew, ?_, hafter.pid.nonneg, hafter.pid.upper⟩
    exact ((Scalar.le_iff 0 _).1 hafter.pid.nonneg).2.1
  · intro s ks k hs hks
    obtain ⟨t, ht, hw⟩ := Pid.calls?_within hs ks k hks
    exact ⟨t, ht, hw.abs_le⟩

/-- A limit of negative zero leaves no room at all, before and after a reading that fails; and the
law comes back from an error without bound in the other direction. -/
theorem anti_windup_tight :
    let c : Config := { integralLimit := Scalar.zero true }
    let dt : TickPeriod := ⟨.ofMicroseconds 1000, rfl⟩
    let up : Pid.Call := ⟨Scalar.infinity false, dt, {}, 2⟩
    let down : Pid.Call := ⟨Scalar.infinity true, dt, {}, 1⟩
    (c.check = .ok () ∧ ∃ r, create c = .ok r ∧
      let s := r.after [.operation (.tick 46 dt),
        .step ({ sensorFails := true } : ScriptedStage) dt, .operation (.tick 45.5 dt)]
      0 ≤ s.pid.accumulator ∧ s.pid.accumulator ≤ Scalar.zero true) ∧
    ((∀ k ∈ [up, down], k.Proper) ∧
      ∃ t, Pid.zero.calls? [up, down] = some t ∧ t.accumulator.abs ≤ 1) := by
  intro c dt up down
  have hc : ({ integralLimit := Scalar.zero true } : Config).check = .ok () := rfl
  have hproper : ∀ k ∈ [up, down], k.Proper := by
    intro k hk
    rcases List.mem_pair.1 hk with rfl | rfl <;> exact ⟨by decide, by decide, by decide⟩
  obtain ⟨hruns, hcalls⟩ := anti_windup (σ := ScriptedStage)
  refine ⟨⟨hc, ?_⟩, hproper, hcalls .zero [up] down (by decide) hproper⟩
  obtain ⟨r, hr, -, hbounds⟩ := hruns c _ hc
  exact ⟨r, hr, hbounds⟩

end Regulator
end BusRegen
