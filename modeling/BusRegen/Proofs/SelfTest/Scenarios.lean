import BusRegen.SelfTest.Suite
import BusRegen.Proofs.SelfTest.Bench
import BusRegen.Proofs.Scalar.Monotone
/-!
# The scenarios that no valid settings can fail

Eight scenarios expect nothing but what follows from the settings themselves: an active regulator
exactly in the regulating zone, an integral and a current within the limits, and no memory and no
drive outside the zone. They pass for all valid settings, so a failure of one of them is a fault of
the regulator, of the control step or of the stage (`passes_of_valid`).

The voltages that are derived from the settings are a volt or so beyond a bound of the zone. For
voltages so great that a volt is lost in rounding they are the bound itself, which is outside the
zone as well (`Zone.released_below`, `Zone.released_above`).
-/
namespace BusRegen

namespace Zone

variable {c : Config} {v : Float}

theorem released_of_le_minimum (h : v ≤ c.minimumVoltage) : classify v c ≠ .regulating := by
  rw [classify, if_pos (.inr h)]
  exact noConfusion

theorem released_of_threshold_le (h : c.thresholdVoltage ≤ v) : classify v c ≠ .regulating := by
  unfold classify
  rw [if_pos h]
  split <;> exact noConfusion

section
variable {x : Float} (hc : c.Valid) (hx : x.isFinite = true) (h0 : 0 ≤ x)
include hc hx h0

theorem released_below : classify (c.minimumVoltage - x) c ≠ .regulating :=
  released_of_le_minimum (Scalar.sub_le_of_nonneg (hc.finite .minimumVoltage) hx h0)

theorem released_above : classify (c.thresholdVoltage + x) c ≠ .regulating :=
  released_of_threshold_le (Scalar.le_add_of_nonneg (hc.finite .thresholdVoltage) hx h0)

end

end Zone

theorem Pid.isZero_zero : Pid.zero.isZero = true := by decide

namespace SelfTest

/-! ## Reports -/

/-- Why a scenario has failed, if it has. -/
def complaint : Verdict → Option String
  | .ok _ => none
  | .error m => some m

/-- The scenario of a name ends with a verdict: when it is run alone, and in the suite, which has
one report of that name. -/
structure Ends (c : Config) (name : String) (v : Verdict) : Prop where
  alone : ∃ s, Scenario.find? name = some s ∧ s.test c = v ∧ (s.run c).message = complaint v
  suite : ∃ result, run c = .ok result ∧
    (result.reports.filter (·.name == name)).map (·.message) = [complaint v]

variable {c : Config}

theorem ends (hc : c.Valid) {s : Scenario} (hs : Scenario.all.filter (·.name == s.name) = [s])
    {v : Verdict} (h : s.test c = v) : Ends c s.name v := by
  have hmessage : (s.run c).message = complaint v := by
    rw [← h]
    rfl
  refine ⟨⟨s, ?_, h, hmessage⟩, ⟨Scenario.all.map (·.run c)⟩, ?_, ?_⟩
  · rw [Scenario.find?, ← List.head?_filter, hs]
    rfl
  · rw [run, (Config.check_eq_ok_iff c).2 hc]
    rfl
  · have hfilter : (Scenario.all.map (·.run c)).filter (·.name == s.name) = [s.run c] := by
      rw [List.filter_map]
      exact congrArg (List.map (·.run c)) hs
    rw [hfilter, ← hmessage]
    rfl

/-- What follows a test that has passed. -/
theorem bind_ok {α β : Type} (x : α) (f : α → Except String β) : (.ok x >>= f) = f x := rfl

theorem ensure_true (message : String) : ensure true message = .ok () := rfl

/-! ## The scenarios -/

section
variable (hc : c.Valid)
include hc

theorem antiWindup_ok : antiWindup c = .ok () := by
  obtain ⟨b, hb, hs, -⟩ := Bench.sound_create hc
  have hheld := hs.hold hc (c.minimumVoltage - 1.0) 1000
  have hz : Zone.classify (c.minimumVoltage - 1.0) c ≠ .regulating :=
    Zone.released_below hc (by decide) (by decide)
  have hpid := (hheld.settled (by norm_num)).erased hz
  have hcheck (b : Bench) (hb : b.Sound c) : integralWithin c.integralLimit b = .ok () := by
    rw [integralWithin, decide_eq_true hb.integral.abs_le]
    rfl
  obtain ⟨b', hb'⟩ := hheld.sound.holdChecked hc hcheck (lowest c) 10000
  rw [antiWindup, hb, bind_ok]
  dsimp only
  rw [hpid, Pid.isZero_zero, ensure_true, bind_ok, hb']
  rfl

theorem resetBehavior_ok : resetBehavior c = .ok () := by
  obtain ⟨b, hb, hs, -⟩ := Bench.sound_create hc
  have hheld := (hs.hold hc 46.5 50).sound.hold hc (c.thresholdVoltage + 1.0) 10
  have hz : Zone.classify (c.thresholdVoltage + 1.0) c ≠ .regulating :=
    Zone.released_above hc (by decide) (by decide)
  obtain ⟨-, hpid, hreleased⟩ := hheld.settled (by norm_num)
  rw [resetBehavior, hb, bind_ok]
  dsimp only
  rw [hreleased hz, ensure_true, bind_ok, hpid hz, Pid.isZero_zero, ensure_true]

/-- Voltage after voltage on a new bench. -/
theorem sequence_ok {ticks : Nat} (hticks : 0 < ticks) (vs : List Float) :
    (do (← Bench.create c).checkSequence ticks 0 vs) = .ok () := by
  obtain ⟨b, hb, hs, -⟩ := Bench.sound_create hc
  rw [hb]
  exact hs.checkSequence hc hticks 0 vs

theorem limitsAt_ok (v : Float) : limitsAt c v = .ok () := by
  obtain ⟨b, hb, hs, -⟩ := Bench.sound_create hc
  have hcheck (b : Bench) (hb : b.Sound c) : appliedWithin c.maxOutputCurrent v b = .ok () := by
    rw [appliedWithin, decide_eq_true hb.applied]
    rfl
  obtain ⟨b', hb'⟩ := hs.holdChecked hc hcheck v 100
  rw [limitsAt, hb, bind_ok, hb']
  rfl

theorem outputLimits_ok : outputLimits c = .ok () := by
  simp only [outputLimits, List.forM_eq_forM, List.forM_cons, limitsAt_ok hc, bind_ok]
  rfl

end

/-- The scenarios that expect nothing but what follows from the settings. -/
def settled : List String :=
  ["pid_anti_windup", "pid_reset_behavior", "voltage_threshold_detection",
    "voltage_boundary_conditions", "current_output_limits", "voltage_drop_scenario",
    "oscillation_damping", "rapid_voltage_changes"]

/-- **No false alarm.** Valid settings pass these scenarios, whatever their voltages, gains, limits,
deadband and tick period are. -/
theorem passes_of_valid (c : Config) (hc : c.check = .ok ()) :
    ∀ name ∈ settled, Ends c name (.ok ()) := by
  have hv : c.Valid := (Config.check_eq_ok_iff c).1 hc
  simp only [settled, List.forall_mem_cons]
  refine ⟨?_, ?_, ?_, ?_, ?_, ?_, ?_, ?_, nofun⟩
  · exact ends hv (s := ⟨_, .unit, antiWindup⟩) rfl (antiWindup_ok hv)
  · exact ends hv (s := ⟨_, .unit, resetBehavior⟩) rfl (resetBehavior_ok hv)
  · exact ends hv (s := ⟨_, .unit, thresholdDetection⟩) rfl (sequence_ok hv (by decide) _)
  · exact ends hv (s := ⟨_, .unit, boundaryConditions⟩) rfl (sequence_ok hv (by decide) _)
  · exact ends hv (s := ⟨_, .unit, outputLimits⟩) rfl (outputLimits_ok hv)
  · exact ends hv (s := ⟨_, .integration, voltageDrop⟩) rfl (sequence_ok hv (by decide) _)
  · exact ends hv (s := ⟨_, .integration, oscillationDamping⟩) rfl (sequence_ok hv (by decide) _)
  · exact ends hv (s := ⟨_, .integration, rapidChanges⟩) rfl (sequence_ok hv (by decide) _)

/-- Voltages so great that a volt below the minimum is the minimum, and gains of the wrong sign. -/
theorem passes_of_valid_great :
    ∃ c : Config, c.check = .ok () ∧ (c.minimumVoltage - 1.0 == c.minimumVoltage) = true ∧
      Ends c "pid_anti_windup" (.ok ()) ∧ Ends c "voltage_drop_scenario" (.ok ()) := by
  have hc : Config.check
    { targetVoltage := 3e17, thresholdVoltage := 2e17, minimumVoltage := 1e17
      gains := ⟨-20, 0, -0.5⟩ } = .ok () := rfl
  have hall := passes_of_valid _ hc
  exact ⟨_, hc, by decide +kernel, hall _ (by decide), hall _ (by decide)⟩

end SelfTest
end BusRegen
