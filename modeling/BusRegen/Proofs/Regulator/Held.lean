import BusRegen.Proofs.Regulator.Command
import BusRegen.Proofs.Regulator.Memory
/-!
# A voltage that is held

`heldFor v dt n` is a regulator after `n` ticks at one voltage and period, `heldOutput v dt n` the
output of the tick after these. Both begin with the regulator as it is, whatever it has been
through.

In the regulating zone every such tick is one of the PID law at the same error (`pid_heldFor`,
`heldOutput_eq`). Once a tick leaves the PID memory as it was nothing changes any more
(`heldFor_of_fixed`, `heldOutput_congr`).
-/
namespace BusRegen

/-- What lies between the minimum and the threshold is in the regulating zone. -/
theorem Zone.classify_of_mem {c : Config} (h : c.Valid) {v : Float} (hmin : c.minimumVoltage < v)
    (hthr : v < c.thresholdVoltage) : classify v c = .regulating := by
  refine (classify_eq_regulating_iff h v).2 ⟨?_, hmin, hthr⟩
  exact Scalar.isFinite_of_mem (h.finite .minimumVoltage) (h.finite .thresholdVoltage)
    (Scalar.le_of_lt hmin) (Scalar.le_of_lt hthr)

namespace Regulator

/-- The regulator after `n` ticks at one voltage. -/
def heldFor (r : Regulator) (v : Float) (dt : TickPeriod) : Nat → Regulator
  | 0 => r
  | n + 1 => ((r.heldFor v dt n).tick v dt).2

/-- The output of the tick that follows on `n` ticks at the same voltage. -/
def heldOutput (r : Regulator) (v : Float) (dt : TickPeriod) (n : Nat) : Output :=
  ((r.heldFor v dt n).tick v dt).1

variable (r : Regulator) (v : Float) (dt : TickPeriod)

theorem config_heldFor (n : Nat) : (r.heldFor v dt n).config = r.config := by
  induction n with
  | zero => rfl
  | succ n ih => exact ih

theorem period_heldFor (n : Nat) : (r.heldFor v dt n).period = r.period := by
  induction n with
  | zero => rfl
  | succ n ih => exact ih

theorem alike_heldFor {n m : Nat} (h : (r.heldFor v dt n).pid = (r.heldFor v dt m).pid) :
    Alike (r.heldFor v dt n) (r.heldFor v dt m) where
  config := (config_heldFor r v dt n).trans (config_heldFor r v dt m).symm
  period := (period_heldFor r v dt n).trans (period_heldFor r v dt m).symm
  pid := h

/-- Outputs at one voltage are the same where the PID memory is. -/
theorem heldOutput_congr {n m : Nat} (h : (r.heldFor v dt n).pid = (r.heldFor v dt m).pid) :
    r.heldOutput v dt n = r.heldOutput v dt m :=
  ((alike_heldFor r v dt h).tick v dt).1

/-- A tick that leaves the PID memory as it was is the last one that changes anything. -/
theorem heldFor_of_fixed {k n : Nat} (h : (r.heldFor v dt (k + 1)).pid = (r.heldFor v dt k).pid)
    (hn : k ≤ n) : (r.heldFor v dt n).pid = (r.heldFor v dt k).pid := by
  induction n, hn using Nat.le_induction with
  | base => rfl
  | succ n hn ih => exact ((alike_heldFor r v dt ih).tick v dt).2.pid.trans h

/-! ## In the regulating zone -/

variable {r v}

theorem pid_heldFor (hz : Zone.classify v r.config = .regulating) (n : Nat) :
    (r.heldFor v dt (n + 1)).pid =
      ((r.heldFor v dt n).pid.update (r.config.targetVoltage - v) dt r.config.gains
        r.config.integralLimit).2 := by
  have hc := config_heldFor r v dt n
  rw [heldFor, tick, respond_regulating (by rw [hc, hz]), regulate, conclude, hc]

theorem heldOutput_eq (hz : Zone.classify v r.config = .regulating) (n : Nat) :
    r.heldOutput v dt n =
      let terms := ((r.heldFor v dt n).pid.update (r.config.targetVoltage - v) dt r.config.gains
        r.config.integralLimit).1
      regulated r.config v terms (Scalar.clamp 0 r.config.maxOutputCurrent terms.raw) := by
  have hc := config_heldFor r v dt n
  rw [heldOutput, tick, respond_regulating (by rw [hc, hz]), regulate, conclude, hc]

end Regulator
end BusRegen
