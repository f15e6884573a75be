import BusRegen.Proofs.Regulator.Command
import BusRegen.Proofs.Regulator.Memory
import BusRegen.Proofs.Scalar.Monotone
import BusRegen.Proofs.Duration
/-!
# The integral stays within its limit

One tick of the PID law limits the integral to `-limit … limit`, which lets a NaN through. There is
none: a number times the length of a tick is a number, though it may be an infinity, and so is its
sum with an integral within the limit, as that is finite (`Pid.within_update`). The error of a tick
is a number because both the target and a reading in the regulating zone are finite.

So under valid settings every tick keeps the integral within its limit, whatever the gains, the
reading and the period (`Regulator.within_tick`).
-/
namespace BusRegen

namespace Pid

/-- The integral is within its limit on either side. -/
structure Within (limit : Float) (s : Pid) : Prop where
  lower : -limit ≤ s.accumulator
  upper : s.accumulator ≤ limit

variable {s : Pid} {limit : Float}

theorem within_zero (h : 0 ≤ limit) : Within limit .zero :=
  ⟨(Scalar.neg_nonpos_iff limit).2 h, h⟩

theorem Within.isFinite (h : s.Within limit) (hfin : limit.isFinite = true) :
    s.accumulator.isFinite = true :=
  Scalar.isFinite_of_mem ((Scalar.isFinite_neg limit).trans hfin) hfin h.lower h.upper

/-- A tick brings the integral within its limit from wherever it was, as long as it was finite. -/
theorem within_update (hs : s.accumulator.isFinite = true) (hlimit : 0 ≤ limit) {error : Float}
    (herror : error.isNaN = false) (dt : TickPeriod) (g : Gains) :
    (s.update error dt g limit).2.Within limit := by
  obtain ⟨q, -, hdt⟩ := dt.hasValue
  have hstep : (error * dt.seconds).isNaN = false := Scalar.isNaN_mul herror hdt
  have hsum := Scalar.isNaN_add hs hstep
  obtain ⟨hlow, hhigh⟩ := Scalar.clamp_mem (Scalar.neg_le_self hlimit) hsum
  exact ⟨hlow, hhigh⟩

theorem Within.abs_le (h : s.Within limit) : s.accumulator.abs ≤ limit :=
  Scalar.abs_le_of_mem h.lower h.upper

end Pid

namespace Regulator

variable {r : Regulator}

/-- A tick in the regulating zone has an error that is a number; any other clears the integral. -/
theorem within_tick (h : r.config.Valid) (hw : r.pid.Within r.config.integralLimit) (v : Float)
    (dt : TickPeriod) : (r.tick v dt).2.pid.Within r.config.integralLimit := by
  by_cases hz : Zone.classify v r.config = .regulating
  · obtain ⟨hv, -, -⟩ := (Zone.classify_eq_regulating_iff h v).1 hz
    have herror := (Scalar.rank_sub (h.finite .targetVoltage) hv).1
    have hnext := Pid.within_update (hw.isFinite (h.finite .integralLimit)) h.integralLimit_nonneg
      herror dt r.config.gains
    rw [tick, respond_regulating hz]
    exact hnext
  · rw [pid_tick_of_released hz]
    exact Pid.within_zero h.integralLimit_nonneg

end Regulator
end BusRegen
