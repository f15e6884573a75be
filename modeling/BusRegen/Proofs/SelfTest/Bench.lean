import BusRegen.SelfTest.Bench
import BusRegen.Proofs.ControlStep
import BusRegen.Proofs.Regulator.Integral
/-!
# What the test bench does

A bench is a new regulator of valid settings on a new scripted stage without failures. Holding a
voltage keeps it so, with the integral and the applied current within their limits (`Sound`), and
what a scenario can see after the last tick is decided by the zone of the voltage, whatever was held
before (`Settled`). `Held.step` is the step lemma, `Sound.hold` the run lemma.

The checks of the suite follow. A bench expects an active regulator exactly where the regulator is
active, for every voltage (`Settled.checkActive`), so no sequence of voltages fails
(`Sound.checkSequence`); and what a sound bench passes is passed after every tick
(`Sound.holdChecked`).
-/
namespace BusRegen

namespace ScriptedStage

/-- What a control step with the command `k` does to a stage that accepts it. -/
structure Carried (s : ScriptedStage) (k : Command) (s' : ScriptedStage) : Prop where
  applied : s'.appliedCurrent.abs = k.magnitude
  released : s'.motorReleased = k.isRelease
  applyCalls : s'.applyCalls = s.applyCalls + (!k.isRelease).toNat
  resets : s'.watchdogResets = s.watchdogResets + 1
  input : s'.inputVoltage = s.inputVoltage ∧ s'.script = s.script
  switches : s'.sensorFails = s.sensorFails ∧ s'.actuatorFails = s.actuatorFails

theorem readVoltage_eq {s : ScriptedStage} (hs : s.sensorFails = false) (hscript : s.script = []) :
    s.readVoltage = (.done s.inputVoltage, { s with reads := s.reads + 1 }) := by
  simp [readVoltage, hs, hscript]

theorem carried {s : ScriptedStage} (h : s.actuatorFails = false) (k : Command) :
    Carried s k (PowerStage.drive { s with reads := s.reads + 1 } k).2.resetWatchdog := by
  have haccepts : { s with reads := s.reads + 1 }.actuatorFails = false := h
  rw [drive_accepted haccepts]
  cases k with
  | apply x => exact ⟨rfl, rfl, rfl, rfl, ⟨rfl, rfl⟩, rfl, rfl⟩
  | release => exact ⟨Scalar.abs_zero, rfl, rfl, rfl, ⟨rfl, rfl⟩, rfl, rfl⟩

end ScriptedStage

namespace SelfTest.Bench

variable {c : Config} {b b' : Bench} {v : Float} {n : Nat}

/-- A bench of settings `c`, with all limits kept and nothing to fail. -/
structure Sound (c : Config) (b : Bench) : Prop where
  config : b.regulator.config = c
  integral : b.regulator.pid.Within c.integralLimit
  applied : b.applied ≤ c.maxOutputCurrent
  sensor : b.stage.sensorFails = false
  actuator : b.stage.actuatorFails = false
  script : b.stage.script = []

/-- What there is to see of a tick at `v`. -/
structure Settled (c : Config) (v : Float) (b : Bench) : Prop where
  active : b.isActive = (Zone.classify v c).isRegulating
  erased : Zone.classify v c ≠ .regulating → b.regulator.pid = .zero
  released : Zone.classify v c ≠ .regulating → b.stage.motorReleased = true

/-- `b'` is what `b` has become by `n` ticks at `v`. -/
structure Held (c : Config) (v : Float) (n : Nat) (b b' : Bench) : Prop where
  sound : Sound c b'
  input : b'.stage.inputVoltage = v
  resets : b'.stage.watchdogResets = b.stage.watchdogResets + n
  applyCalls : Zone.classify v c ≠ .regulating → b'.stage.applyCalls = b.stage.applyCalls
  settled : 0 < n → Settled c v b'

/-! ## Steps -/

/-- The regulator ticks at the voltage of the stage, and the stage carries out its command. -/
theorem Sound.step_carried (h : Sound c b) :
    let t := b.regulator.tick b.stage.inputVoltage b.regulator.period
    b.step.regulator = t.2 ∧ b.stage.Carried t.1.command b.step.stage := by
  have hread := ScriptedStage.readVoltage_eq h.sensor h.script
  have hcarried := ScriptedStage.carried h.actuator
  unfold step Regulator.step
  rw [show PowerStage.readVoltage b.stage = b.stage.readVoltage from rfl, hread]
  dsimp only
  rw [Regulator.finishStep_eq _ (ScriptedStage.dependable.drive_ne_crash trivial _)]
  exact ⟨rfl, hcarried _⟩

section
variable (hc : c.Valid)
include hc

theorem Sound.step (h : Sound c b) : Sound c b.step := by
  obtain ⟨hr, hs⟩ := h.step_carried
  obtain ⟨rfl, hintegral, -, hsensor, hactuator, hscript⟩ := h
  refine ⟨by rw [hr]; rfl, ?_, ?_, ?_, ?_, ?_⟩
  · rw [hr]
    exact Regulator.within_tick hc hintegral _ _
  · rw [Bench.applied, hs.applied]
    exact Regulator.magnitude_tick_le hc _ _
  · rw [hs.switches.1, hsensor]
  · rw [hs.switches.2, hactuator]
  · rw [hs.input.2, hscript]

omit hc in
/-- Nothing that happened before a tick can be seen after it. -/
theorem Sound.settled (h : Sound c b) : Settled c b.stage.inputVoltage b.step := by
  obtain ⟨hr, hs⟩ := h.step_carried
  obtain rfl := h.config
  refine ⟨?_, fun hz => ?_, fun hz => ?_⟩
  · rw [isActive, hr]
    exact congrArg Zone.isRegulating (Regulator.zone_tick _ _ _)
  · rw [hr]
    exact Regulator.pid_tick_of_released hz _
  · rw [hs.released, Regulator.command_tick_released hz]
    rfl

theorem Held.step (h : Held c v n b b') : Held c v (n + 1) b b'.step := by
  obtain ⟨hr, hs⟩ := h.sound.step_carried
  have hsettled := h.sound.settled
  rw [h.input] at hs hsettled
  refine ⟨h.sound.step hc, by rw [hs.input.1, h.input], ?_, fun hz => ?_, fun _ => hsettled⟩
  · rw [hs.resets, h.resets, Nat.add_assoc]
  · have hz' : Zone.classify v b'.regulator.config ≠ .regulating := by rwa [h.sound.config]
    rw [hs.applyCalls, Regulator.command_tick_released hz', h.applyCalls hz]
    rfl

omit hc in
theorem steps_succ (b : Bench) (n : Nat) : b.steps (n + 1) = (b.steps n).step := by
  induction n generalizing b with
  | zero => rfl
  | succ n ih => exact ih b.step

/-- So many ticks at one voltage, by induction on their number from the first to the last. -/
theorem Sound.hold (h : Sound c b) (v : Float) (n : Nat) : Held c v n b (b.hold v n) := by
  unfold Bench.hold
  induction n with
  | zero =>
    exact ⟨⟨h.config, h.integral, h.applied, h.sensor, h.actuator, h.script⟩, rfl, rfl,
      fun _ => rfl, fun h0 => absurd h0 (Nat.lt_irrefl 0)⟩
  | succ n ih =>
    rw [steps_succ]
    exact ih.step hc

/-- A new bench, which has made no tick. -/
theorem sound_create :
    ∃ b, create c = .ok b ∧ Sound c b ∧ b.stage.watchdogResets = 0 ∧ b.stage.applyCalls = 0 := by
  have hzero : (0 : Float).abs ≤ c.maxOutputCurrent := by
    rw [Scalar.abs_zero]
    exact Scalar.le_of_lt hc.maxOutputCurrent_pos
  refine ⟨{ regulator := { config := c, period := ⟨c.tickPeriod, hc.tickPeriod_nonzero⟩ } },
    by rw [create, Regulator.create_eq hc], ?_, rfl, rfl⟩
  exact ⟨rfl, Pid.within_zero hc.integralLimit_nonneg, hzero, rfl, rfl, rfl⟩

/-! ## Checks -/

theorem Settled.checkActive (hs : Sound c b) (h : Settled c v b) (i : Nat) :
    b.checkActive i v = .ok () := by
  have hwanted : b.wantsActive v = (Zone.classify v c).isRegulating := by
    rw [wantsActive, hs.config, Zone.isRegulating_classify hc]
  rw [Bench.checkActive, h.active, hwanted, beq_self_eq_true]
  rfl

theorem Sound.checkSequence (h : Sound c b) {ticks : Nat} (hticks : 0 < ticks) (i : Nat)
    (vs : List Float) : b.checkSequence ticks i vs = .ok () := by
  induction vs generalizing b i with
  | nil => rfl
  | cons v vs ih =>
    have hheld := h.hold hc v ticks
    rw [Bench.checkSequence, (hheld.settled hticks).checkActive hc hheld.sound]
    exact ih hheld.sound (i + 1)

/-- What every sound bench passes is passed after every tick. -/
theorem Sound.holdChecked {check : Bench → Verdict} (hcheck : ∀ b, Sound c b → check b = .ok ())
    (h : Sound c b) (v : Float) (n : Nat) : ∃ b', holdChecked check v b n = .ok b' := by
  induction n generalizing b with
  | zero => exact ⟨b, rfl⟩
  | succ n ih =>
    have hs := (h.hold hc v 1).sound
    rw [Bench.holdChecked, hcheck _ hs]
    exact ih hs

end

end SelfTest.Bench
end BusRegen
