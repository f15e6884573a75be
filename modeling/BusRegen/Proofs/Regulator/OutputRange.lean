import BusRegen.Proofs.Regulator.AntiWindup
/-!
# The range of the output current

In the regulating zone the output of a tick is the raw output of the PID law limited to
`0 … maxOutputCurrent`, and in the other zones it is zero. A number stays within the limits,
whatever it was before, but a NaN goes through them. Valid settings do not keep it away: the gains
only have to be finite, so that two of the terms may overflow to infinities of opposite signs. The
output of such a tick is no number, and is not driven (`reported_tick`).

There are no such ticks as long as neither the proportional term nor the integral one nor their sum
can overflow, which is seen from the settings (`Config.Calm`). The derivative may still be an
infinity, but it meets a finite sum then (`Pid.Tempered.isNaN_raw`).
-/
namespace BusRegen

namespace Config

/-- The greatest error in the regulating zone. -/
def span (c : Config) : Float := c.targetVoltage - c.minimumVoltage

/-- The proportional and the integral term are finite at their greatest, and so is their sum. -/
def Calm (c : Config) : Prop :=
  (c.gains.kp.abs * c.span + c.gains.ki.abs * c.integralLimit).isFinite = true

instance (c : Config) : Decidable c.Calm := inferInstanceAs (Decidable (_ = _))

/-- The output currents that a regulator with these settings is meant to report. -/
def Allows (c : Config) (x : Float) : Prop := 0 ≤ x ∧ x ≤ c.maxOutputCurrent

theorem Valid.allows_zero {c : Config} (h : c.Valid) : c.Allows 0 :=
  ⟨by decide, Scalar.le_of_lt h.maxOutputCurrent_pos⟩

theorem Allows.isNaN {c : Config} {x : Float} (h : c.Allows x) : x.isNaN = false :=
  ((Scalar.le_iff 0 x).1 h.1).2.1

theorem not_allows {c : Config} {x : Float} (h : x.isNaN = true) : ¬ c.Allows x :=
  fun hx => Bool.noConfusion (hx.isNaN.symm.trans h)

end Config

namespace Regulator

variable {c : Config} {r : Regulator}

/-! ## With and without a number -/

/-- What is said of the output of a tick: it is within the limits if the raw output is a number, and
otherwise it is no number either and the motor is released. -/
structure Reported (c : Config) (o : Output) : Prop where
  allowed : o.terms.raw.isNaN = false → c.Allows o.current
  missing : o.terms.raw.isNaN = true → o.current.isNaN = true ∧ o.command = .release

theorem raw_zero : ({} : PidTerms).raw.isNaN = false := by decide

theorem reported_tick (h : r.config.Valid) (v : Float) (dt : TickPeriod) :
    Reported r.config (r.tick v dt).1 := by
  have hlimits : 0 ≤ r.config.maxOutputCurrent := Scalar.le_of_lt h.maxOutputCurrent_pos
  by_cases hz : Zone.classify v r.config = .regulating
  · rw [tick, respond_regulating hz]
    constructor
    · exact fun hraw => Scalar.clamp_mem hlimits hraw
    · intro hraw
      have hnan := (Scalar.isNaN_clamp hlimits).trans hraw
      exact ⟨hnan, if_neg (Scalar.not_lt_of_isNaN (.inr hnan))⟩
  · rw [tick, respond_released hz]
    exact ⟨fun _ => h.allows_zero, fun hraw => Bool.noConfusion (raw_zero.symm.trans hraw)⟩

end Regulator

/-! ## Calm settings -/

namespace Config

theorem Valid.span_nonneg {c : Config} (h : c.Valid) : 0 ≤ c.span := by
  have hlt : c.minimumVoltage < c.targetVoltage :=
    Scalar.lt_of_lt_of_le h.minimum_lt (Scalar.le_of_lt h.threshold_lt)
  exact Scalar.zero_le_sub (h.finite .targetVoltage) (h.finite .minimumVoltage)
    (Scalar.le_of_lt hlt)

theorem Valid.error_le_span {c : Config} (h : c.Valid) {v : Float}
    (hz : Zone.classify v c = .regulating) : c.targetVoltage - v ≤ c.span := by
  obtain ⟨hv, hmin, -⟩ := (Zone.classify_eq_regulating_iff h v).1 hz
  exact Scalar.sub_le_sub_of_le (h.finite .targetVoltage) (h.finite .minimumVoltage) hv
    (Scalar.le_of_lt hmin)

end Config

namespace Pid

/-- The integral is as it should be, and the last error was one of the regulating zone. -/
structure Tempered (c : Config) (s : Pid) : Prop extends OneSided c.integralLimit s where
  error_nonneg : 0 ≤ s.previousError
  error_le : s.previousError ≤ c.span

variable {c : Config} {s : Pid}

theorem tempered_zero (h : c.Valid) : Tempered c .zero where
  toOneSided := oneSided_zero h.integralLimit_nonneg
  error_nonneg := by decide
  error_le := h.span_nonneg

theorem Tempered.update (hs : s.Tempered c) (h : c.Valid) {v : Float}
    (hz : Zone.classify v c = .regulating) (dt : TickPeriod) :
    (s.update (c.targetVoltage - v) dt c.gains c.integralLimit).2.Tempered c where
  toOneSided := hs.update_error h hz dt
  error_nonneg := Pid.error_nonneg h hz
  error_le := h.error_le_span hz

/-- Under calm settings no infinity of one sign meets one of the other. -/
theorem Tempered.isNaN_raw (hs : s.Tempered c) (h : c.Valid) (hcalm : c.Calm) {v : Float}
    (hz : Zone.classify v c = .regulating) (dt : TickPeriod) :
    (s.update (c.targetVoltage - v) dt c.gains c.integralLimit).1.raw.isNaN = false := by
  have hnext := hs.update_error h hz dt
  have herror := Pid.error_nonneg h hz
  have hle := h.error_le_span hz
  have hlimit : c.integralLimit.isFinite = true := h.finite .integralLimit
  obtain ⟨hpart, hpart'⟩ := Scalar.isFinite_of_add hcalm
  have hspan := (Scalar.isFinite_of_mul hpart).2
  obtain ⟨hnp, hp⟩ := Scalar.abs_rank_mul_le (h.finite .kp) herror hle hspan
  obtain ⟨hni, hi⟩ := Scalar.abs_rank_mul_le (h.finite .ki) hnext.nonneg hnext.upper hlimit
  have hsum := Scalar.isFinite_add_of_abs_le (Scalar.isFinite_of_abs_rank_le hnp hpart hp)
    (Scalar.isFinite_of_abs_rank_le hni hpart' hi) hcalm hp hi
  -- The derivative is a number: two errors of the zone are no further apart than its span.
  obtain ⟨hnd, hd⟩ :=
    Scalar.abs_rank_sub_le hspan herror hle hs.error_nonneg hs.error_le
  have hchange := Scalar.isFinite_of_abs_rank_le hnd hspan hd
  obtain ⟨q, -, hdt⟩ := dt.hasValue
  exact Scalar.isNaN_add hsum
    (Scalar.isNaN_div (Scalar.rank_mul (h.finite .kd) hchange).1 hdt)

end Pid

namespace Regulator

variable {c : Config} {r : Regulator}

theorem tempered_invariant (h : c.Valid) : PidInvariant c (Pid.Tempered c) where
  zero := Pid.tempered_zero h
  update dt hs hz := hs.update h hz dt

theorem isNaN_raw_tick (hr : r.Keeps c (Pid.Tempered c)) (h : c.Valid) (hcalm : c.Calm) (v : Float)
    (dt : TickPeriod) : (r.tick v dt).1.terms.raw.isNaN = false := by
  obtain ⟨rfl, hs⟩ := hr
  by_cases hz : Zone.classify v r.config = .regulating
  · rw [tick, respond_regulating hz]
    exact hs.isNaN_raw h hcalm hz dt
  · rw [tick, respond_released hz]
    exact raw_zero

end Regulator
end BusRegen
