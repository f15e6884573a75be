import BusRegen.Proofs.SelfTest.Scenarios
/-!
# The scenarios that expect a certain window

Five scenarios look at the regulating state, the release and the account of ticks only, but at
voltages of which some are fixed: 46 V and 46.8 V are to be regulated and 55 V is not, whatever the
settings say. Valid settings need not agree. `verdicts_of_window` gives the verdict of each
scenario under all valid settings, as a question to the window between minimum and threshold; what
else the scenarios look at is never the reason of a failure. `alarms_of_narrow_window` are valid
settings under which all five fail.
-/
namespace BusRegen

/-- Whether a voltage is strictly between the minimum and the threshold. -/
def Config.regulatesAt (c : Config) (v : Float) : Bool :=
  c.minimumVoltage < v && v < c.thresholdVoltage

namespace SelfTest

variable {c : Config} {b b' : Bench} {v : Float} {n : Nat}

theorem Bench.Held.isActive (hc : c.Valid) (h : Bench.Held c v n b b') (hn : 0 < n) :
    b'.isActive = c.regulatesAt v :=
  (h.settled hn).active.trans (Zone.isRegulating_classify hc v)

theorem classify_ne_regulating (hc : c.Valid) (h : c.regulatesAt v = false) :
    Zone.classify v c ≠ .regulating := by
  intro hz
  have hz' := Zone.isRegulating_classify hc v
  rw [hz] at hz'
  exact Bool.noConfusion (hz'.trans h)

theorem regulatesAt_eq_false (hc : c.Valid) (hz : Zone.classify v c ≠ .regulating) :
    c.regulatesAt v = false := by
  rw [Config.regulatesAt, ← Zone.isRegulating_classify hc v]
  exact beq_false_of_ne hz

theorem ensure_false (message : String) : ensure false message = .error message := rfl

theorem bind_error {α β : Type} (message : String) (f : α → Except String β) :
    ((.error message : Except String α) >>= f) = .error message := rfl

/-- A test followed by others that are passed if it is. -/
theorem ensure_bind {condition : Bool} {message : String} {f : Unit → Verdict}
    (h : condition = true → f () = .ok ()) :
    (ensure condition message >>= f) = ensure condition message := by
  cases condition with
  | false => rfl
  | true => exact h rfl

section
variable (hc : c.Valid)
include hc

theorem safetyCutoff_eq :
    safetyCutoff c =
      ensure (c.regulatesAt (lowest c)) "regen should be enabled just above minimum" := by
  obtain ⟨b, hb, hs, -, hcalls⟩ := Bench.sound_create hc
  have hbelow := hs.hold hc (c.minimumVoltage - 1.0) 10
  have habove := hbelow.sound.hold hc (lowest c) 1
  have hz : Zone.classify (c.minimumVoltage - 1.0) c ≠ .regulating :=
    Zone.released_below hc (by decide) (by decide)
  have hrest := (hbelow.isActive hc (by decide)).trans (regulatesAt_eq_false hc hz)
  have hnone : ((b.hold (c.minimumVoltage - 1.0) 10).stage.applyCalls == 0) = true := by
    rw [hbelow.applyCalls hz, hcalls]
    rfl
  rw [safetyCutoff, hb, bind_ok]
  dsimp only
  rw [hrest, Bool.not_false, ensure_true, bind_ok, hnone, ensure_true, bind_ok,
    habove.isActive hc (by decide)]

theorem voltageRecovery_eq :
    voltageRecovery c = ensure (c.regulatesAt 46.0) "regen should be active at 46 V" := by
  obtain ⟨b, hb, hs, -⟩ := Bench.sound_create hc
  have hheld := hs.hold hc 46.0 50
  rw [voltageRecovery, hb, bind_ok]
  dsimp only
  rw [hheld.isActive hc (by decide)]
  exact ensure_bind fun _ => hheld.sound.checkSequence hc (by decide) _ _

theorem responseTime_eq :
    responseTime c =
      ensure (c.regulatesAt 46.0) "should react on the first tick after a drop" := by
  obtain ⟨b, hb, hs, -⟩ := Bench.sound_create hc
  have hdrop := (hs.hold hc 48.0 10).sound.hold hc 46.0 1
  have hstay := hdrop.sound.hold hc 46.0 4
  rw [responseTime, hb, bind_ok]
  dsimp only
  rw [hdrop.isActive hc (by decide), hstay.isActive hc (by decide)]
  refine ensure_bind fun h => ?_
  rw [h, ensure_true]

/-- Rounds at a voltage in the window, by induction on their number. -/
theorem holdRounds_ok (h : c.regulatesAt 46.8 = true) (hs : b.Sound c) (made n : Nat) :
    ∃ b', holdRounds b made n = .ok b' ∧
      b'.stage.watchdogResets = b.stage.watchdogResets + 100 * n := by
  induction n generalizing b made with
  | zero => exact ⟨b, rfl, rfl⟩
  | succ n ih =>
    have hheld := hs.hold hc 46.8 100
    obtain ⟨b', hb', hresets⟩ := ih hheld.sound (made + 1)
    refine ⟨b', ?_, ?_⟩
    · rw [holdRounds, hheld.isActive hc (by decide), h, ensure_true, bind_ok, hb']
    · rw [hresets, hheld.resets]
      omega

theorem longDuration_eq :
    longDuration c = ensure (c.regulatesAt 46.8) "should keep regulating after 100 ticks" := by
  obtain ⟨b, hb, hs, hresets, -⟩ := Bench.sound_create hc
  rw [longDuration, hb, bind_ok]
  cases h : c.regulatesAt 46.8 with
  | true =>
    obtain ⟨b', hb', hresets'⟩ := holdRounds_ok hc h hs 0 10
    have hcount : (b'.stage.watchdogResets == 1000) = true := by
      rw [hresets', hresets]
      rfl
    rw [hb', bind_ok, hcount, ensure_true, ensure_true]
  | false =>
    have hheld := hs.hold hc 46.8 100
    rw [holdRounds, hheld.isActive hc (by decide), h, ensure_false, bind_error, bind_error]
    rfl

/-- Voltage after voltage outside the window. -/
theorem checkReleased_ok (hs : b.Sound c) {vs : List Float}
    (h : ∀ v ∈ vs, Zone.classify v c ≠ .regulating) : checkReleased b vs = .ok () := by
  induction vs generalizing b with
  | nil => rfl
  | cons v vs ih =>
    obtain ⟨hv, hvs⟩ := List.forall_mem_cons.1 h
    have hheld := hs.hold hc v 10
    have hsettled := hheld.settled (by decide)
    have hrest := hsettled.active.trans (beq_false_of_ne hv)
    rw [checkReleased, hrest, Bool.not_false, ensure_true, bind_ok, hsettled.released hv,
      ensure_true, bind_ok]
    exact ih hheld.sound hvs

theorem extremeVoltages_eq :
    extremeVoltages c = ensure (!c.regulatesAt 55.0) "should not regulate at 55 V" := by
  obtain ⟨b, hb, hs, -⟩ := Bench.sound_create hc
  have hbelow : Zone.classify (c.minimumVoltage - 5.0) c ≠ .regulating :=
    Zone.released_below hc (by decide) (by decide)
  have hnan : Zone.classify Scalar.nan c ≠ .regulating := by
    intro hz
    obtain ⟨hfin, -⟩ := (Zone.classify_eq_regulating_iff hc Scalar.nan).1 hz
    exact absurd hfin (by decide)
  rw [extremeVoltages, hb, bind_ok]
  cases h : c.regulatesAt 55.0 with
  | false =>
    have h55 := classify_ne_regulating hc h
    exact checkReleased_ok hc hs (by simp [h55, hbelow, hnan])
  | true =>
    have htext :
        s!"should not regulate at {showScalar 55.0} V" = "should not regulate at 55 V" := by
      decide +kernel
    rw [checkReleased, (hs.hold hc 55.0 10).isActive hc (by decide), h, Bool.not_true,
      ensure_false, bind_error, htext, ensure_false]

/-- What each scenario asks the window, and what it says if the answer is no. -/
structure WindowVerdicts (c : Config) : Prop where
  cutoff : Ends c "safety_voltage_cutoff"
    (ensure (c.regulatesAt (lowest c)) "regen should be enabled just above minimum")
  recovery : Ends c "voltage_recovery_scenario"
    (ensure (c.regulatesAt 46.0) "regen should be active at 46 V")
  response : Ends c "response_time"
    (ensure (c.regulatesAt 46.0) "should react on the first tick after a drop")
  long : Ends c "long_duration_operation"
    (ensure (c.regulatesAt 46.8) "should keep regulating after 100 ticks")
  extreme : Ends c "extreme_voltage_conditions"
    (ensure (!c.regulatesAt 55.0) "should not regulate at 55 V")

theorem windowVerdicts : WindowVerdicts c where
  cutoff := ends hc (s := ⟨_, .unit, safetyCutoff⟩) rfl (safetyCutoff_eq hc)
  recovery := ends hc (s := ⟨_, .integration, voltageRecovery⟩) rfl (voltageRecovery_eq hc)
  response := ends hc (s := ⟨_, .integration, responseTime⟩) rfl (responseTime_eq hc)
  long := ends hc (s := ⟨_, .integration, longDuration⟩) rfl (longDuration_eq hc)
  extreme := ends hc (s := ⟨_, .integration, extremeVoltages⟩) rfl (extremeVoltages_eq hc)

end

/-- **The verdicts.** Under all valid settings each of these scenarios ends as its one question to
the window is answered; the fixed voltages in the questions are not derived from the settings. -/
theorem verdicts_of_window (c : Config) (hc : c.check = .ok ()) : WindowVerdicts c :=
  windowVerdicts ((Config.check_eq_ok_iff c).1 hc)

/-- The window of the standard settings has all that is asked for. -/
theorem verdicts_of_window_standard :
    ({} : Config).check = .ok () ∧ Ends {} "safety_voltage_cutoff" (.ok ()) ∧
      Ends {} "voltage_recovery_scenario" (.ok ()) ∧ Ends {} "response_time" (.ok ()) ∧
      Ends {} "long_duration_operation" (.ok ()) ∧
      Ends {} "extreme_voltage_conditions" (.ok ()) := by
  have hlowest : ({} : Config).regulatesAt (lowest {}) = true := by decide +kernel
  have h46 : ({} : Config).regulatesAt 46.0 = true := by decide +kernel
  have h468 : ({} : Config).regulatesAt 46.8 = true := by decide +kernel
  have h55 : ({} : Config).regulatesAt 55.0 = false := by decide +kernel
  obtain ⟨hcutoff, hrecovery, hresponse, hlong, hextreme⟩ := verdicts_of_window {} rfl
  rw [hlowest] at hcutoff
  rw [h46] at hrecovery hresponse
  rw [h468] at hlong
  rw [h55] at hextreme
  exact ⟨rfl, hcutoff, hrecovery, hresponse, hlong, hextreme⟩

/-- A window of 70 mV around 55 V: it has the voltage that is never to be regulated and none of the
others, as the lowest one is beyond its end. -/
theorem alarms_of_narrow_window :
    ∃ c : Config, c.check = .ok () ∧
      Ends c "safety_voltage_cutoff" (.error "regen should be enabled just above minimum") ∧
      Ends c "voltage_recovery_scenario" (.error "regen should be active at 46 V") ∧
      Ends c "response_time" (.error "should react on the first tick after a drop") ∧
      Ends c "long_duration_operation" (.error "should keep regulating after 100 ticks") ∧
      Ends c "extreme_voltage_conditions" (.error "should not regulate at 55 V") := by
  generalize hconfig : ({ targetVoltage := 56.0, thresholdVoltage := 55.02
                          minimumVoltage := 54.95 } : Config) = c
  have hc : c.check = .ok () := by rw [← hconfig]; rfl
  have hv : c.Valid := (Config.check_eq_ok_iff c).1 hc
  have hlowest : c.regulatesAt (lowest c) = false := by rw [← hconfig]; decide +kernel
  have h46 : c.regulatesAt 46.0 = false := by rw [← hconfig]; decide +kernel
  have h468 : c.regulatesAt 46.8 = false := by rw [← hconfig]; decide +kernel
  have h55 : c.regulatesAt 55.0 = true := by rw [← hconfig]; decide +kernel
  obtain ⟨hcutoff, hrecovery, hresponse, hlong, hextreme⟩ := windowVerdicts hv
  rw [hlowest] at hcutoff
  rw [h46] at hrecovery hresponse
  rw [h468] at hlong
  rw [h55] at hextreme
  exact ⟨c, hc, hcutoff, hrecovery, hresponse, hlong, hextreme⟩

end SelfTest
end BusRegen
