import BusRegen.Proofs.Regulator.AntiWindup
import BusRegen.Proofs.Regulator.ControlLaw
import BusRegen.Proofs.Regulator.Held
import BusRegen.Proofs.Scalar.Increasing
/-!
# A greater drop never gives less current

Scalars round monotonically (`rounds_scalar`), and a regulator that is held at a voltage of the
regulating zone follows the control law over them (`memory_heldFor`, `raw_heldOutput`). So of two
copies of a regulator whose gains are not negative, held at two such voltages from any state that it
can come into, the one at the lower voltage never has the lower integral nor the lower output, as
long as the raw outputs are numbers (`drop_mono`).

The two copies need not come to rest, and only one of them may be at a limit. Nothing else is used
of the scalars, so the same is true of the law over rational numbers with any monotone rounding
after each operation, and without a rounding.
-/
namespace BusRegen

namespace Scalar

theorem isNumber_iff (x : Float) : IsNumber x ↔ x.isNaN = false := by
  rw [IsNumber, le_iff]
  simp

/-- Operations on scalars grow with their operands, wherever they give numbers. -/
theorem rounds_scalar :
    Rounds Float (fun k => 0 ≤ k ∧ k.isFinite = true) (fun d => ∃ b, HasValue d b) where
  le_trans {x y z} hxy hyz := by
    rw [le_iff] at *
    exact ⟨hxy.1, hyz.2.1, hxy.2.2.trans hyz.2.2⟩
  number_of_le {x y} h := by
    rw [isNumber_iff, isNumber_iff]
    exact ⟨((le_iff x y).1 h).1, ((le_iff x y).1 h).2.1⟩
  lt_iff {x y} := by
    rw [isNumber_iff, isNumber_iff, lt_iff]
    constructor
    · rintro ⟨hx, hy, hlt⟩
      exact ⟨hx, hy, (not_le_iff hy hx).2 ((lt_iff x y).2 ⟨hx, hy, hlt⟩)⟩
    · rintro ⟨hx, hy, hnot⟩
      exact (lt_iff x y).1 ((not_le_iff hy hx).1 hnot)
  number_of_add h := by
    simp only [isNumber_iff] at *
    exact isNaN_of_add h
  number_of_sub h := by
    simp only [isNumber_iff] at *
    exact isNaN_of_sub h
  number_of_mul h := by
    simp only [isNumber_iff] at *
    exact isNaN_of_mul h
  number_of_div h := by
    simp only [isNumber_iff] at *
    exact isNaN_of_div h
  add_mono hx hy h h' := add_mono hx hy ((isNumber_iff _).1 h) ((isNumber_iff _).1 h')
  sub_mono hx hy h h' := sub_mono hx hy ((isNumber_iff _).1 h) ((isNumber_iff _).1 h')
  sub_self_le {x y} h h' := by
    rw [isNumber_iff] at h h'
    rw [le_iff, rank_sub_self h, rank_sub_self h']
    exact ⟨h, h', le_rfl⟩
  mul_mono_left hk hxy h h' :=
    mul_mono_left hk.1 hk.2 hxy ((isNumber_iff _).1 h) ((isNumber_iff _).1 h')
  mul_mono_right hd hxy _ _ := mul_mono_right hd.choose_spec hxy
  div_mono hd hxy _ _ := div_mono hd.choose_spec hxy

end Scalar

open Scalar

/-- The control law of a regulator with these settings that ticks at this period. -/
def Config.law (c : Config) (dt : TickPeriod) : ControlLaw Float where
  kp := c.gains.kp
  ki := c.gains.ki
  kd := c.gains.kd
  dt := dt.seconds
  target := c.targetVoltage
  integralLimit := c.integralLimit
  least := 0
  greatest := c.maxOutputCurrent

def Pid.memory (s : Pid) : ControlLaw.Memory Float where
  accumulator := s.accumulator
  previousError := s.previousError

namespace Regulator

section
variable {r : Regulator} {v : Float} (dt : TickPeriod)

theorem memory_heldFor (hz : Zone.classify v r.config = .regulating) (n : Nat) :
    (r.heldFor v dt n).pid.memory = (r.config.law dt).held r.pid.memory v n := by
  induction n with
  | zero => rfl
  | succ n ih =>
    rw [pid_heldFor dt hz, ControlLaw.held, ← ih]
    rfl

theorem raw_heldOutput (hz : Zone.classify v r.config = .regulating) (n : Nat) :
    (r.heldOutput v dt n).terms.raw =
      (r.config.law dt).raw ((r.config.law dt).held r.pid.memory v n) v := by
  rw [heldOutput_eq dt hz, ← memory_heldFor dt hz]
  rfl

theorem current_heldOutput (hz : Zone.classify v r.config = .regulating) (n : Nat) :
    (r.heldOutput v dt n).current =
      (r.config.law dt).output ((r.config.law dt).held r.pid.memory v n) v := by
  rw [heldOutput_eq dt hz, ← memory_heldFor dt hz]
  rfl

end

theorem proper_law {c : Config} (h : c.Valid) (hkp : 0 ≤ c.gains.kp) (hki : 0 ≤ c.gains.ki)
    (hkd : 0 ≤ c.gains.kd) (dt : TickPeriod) :
    (c.law dt).Proper (fun k => 0 ≤ k ∧ k.isFinite = true) (fun d => ∃ b, HasValue d b) where
  kp := ⟨hkp, h.finite .kp⟩
  ki := ⟨hki, h.finite .ki⟩
  kd := ⟨hkd, h.finite .kd⟩
  dt := dt.hasValue.imp fun _ hb => hb.2
  integralLimit := neg_le_self h.integralLimit_nonneg
  least := le_of_lt h.maxOutputCurrent_pos

/-- **Monotonicity in the drop.** Two copies of a regulator with valid settings and gains that are
not negative, whatever it has been through, are held at voltages `v < v'` of the regulating zone.
After every tick the copy at `v` has no lower integral and no lower output than the copy at `v'`, if
all raw outputs up to that tick are numbers. The law is monotone in this way over all numbers with a
monotone rounding. -/
theorem drop_mono {σ : Type} [PowerStage σ] :
    (∀ (c : Config) (us : List (Use σ)), c.check = .ok () →
      0 ≤ c.gains.kp → 0 ≤ c.gains.ki → 0 ≤ c.gains.kd →
      ∃ r, create c = .ok r ∧ ∀ (v v' : Float) (dt : TickPeriod) (n : Nat),
        c.minimumVoltage < v → v < v' → v' < c.thresholdVoltage →
        let g := r.after us
        (∀ i ≤ n, (g.heldOutput v dt i).terms.raw.isNaN = false ∧
          (g.heldOutput v' dt i).terms.raw.isNaN = false) →
        (g.heldFor v' dt (n + 1)).pid.accumulator ≤ (g.heldFor v dt (n + 1)).pid.accumulator ∧
          (g.heldOutput v' dt n).current ≤ (g.heldOutput v dt n).current) ∧
    ∀ (round : ℚ → ℚ) (l : ControlLaw (Rounded round)) (s : ControlLaw.Memory (Rounded round))
      (v v' : Rounded round) (n : Nat), Monotone round →
      l.Proper (fun k => 0 ≤ k.value) (fun d => 0 < d.value) → v ≤ v' →
      (l.held s v' (n + 1)).accumulator ≤ (l.held s v (n + 1)).accumulator ∧
        l.output (l.held s v' n) v' ≤ l.output (l.held s v n) v := by
  constructor
  · intro c us hc hkp hki hkd
    have hv : c.Valid := (Config.check_eq_ok_iff c).1 hc
    have hnew := create_eq hv
    have hinv := oneSided_invariant hv
    refine ⟨_, hnew, fun v v' dt n hmin hlt hthr => ?_⟩
    have hafter := after_induction (Keeps.perform hinv) (keeps_of_create hinv hnew) us
    generalize after _ us = g at hafter
    obtain ⟨rfl, hpid⟩ := hafter
    have hz : Zone.classify v g.config = .regulating :=
      Zone.classify_of_mem hv hmin (lt_of_lt_of_le hlt (le_of_lt hthr))
    have hz' : Zone.classify v' g.config = .regulating :=
      Zone.classify_of_mem hv (lt_of_lt_of_le hmin (le_of_lt hlt)) hthr
    have hnum : IsNumber g.pid.memory.accumulator :=
      (isNumber_iff _).2 ((le_iff 0 _).1 hpid.nonneg).2.1
    intro g' hraw
    have hmono := ControlLaw.held_mono rounds_scalar (proper_law hv hkp hki hkd dt) hnum
      (le_of_lt hlt) n fun i hi => by
        rw [← raw_heldOutput dt hz, ← raw_heldOutput dt hz', isNumber_iff, isNumber_iff]
        exact hraw i hi
    rw [← memory_heldFor dt hz, ← memory_heldFor dt hz', ← current_heldOutput dt hz,
      ← current_heldOutput dt hz'] at hmono
    exact hmono
  · intro round l s v v' n hround hl hv
    exact ControlLaw.held_mono (Rounded.rounds hround) hl (Rounded.isNumber _) hv n
      fun _ _ => ⟨Rounded.isNumber _, Rounded.isNumber _⟩

/-- Held at 45.5 V the integral is at its limit after two ticks of three seconds, held at 47 V it is
not. And the law with all gains one, over the whole numbers that rational ones are cut to. -/
theorem drop_mono_standard :
    let dt : TickPeriod := ⟨.ofMicroseconds 3000000, rfl⟩
    let cut : ℚ → ℚ := fun q => (⌊q⌋ : ℤ)
    let l : ControlLaw (Rounded cut) := ⟨⟨1⟩, ⟨1⟩, ⟨1⟩, ⟨2⟩, ⟨48⟩, ⟨10⟩, ⟨0⟩, ⟨50⟩⟩
    (({} : Config).check = .ok () ∧ ∃ r, create {} = .ok r ∧
      let g := r.after [.operation (.tick 46 dt),
        .step ({ sensorFails := true } : ScriptedStage) dt, .operation (.tick 47.25 dt)]
      (∀ i ≤ 1, (g.heldOutput 45.5 dt i).terms.raw.isNaN = false ∧
        (g.heldOutput 47 dt i).terms.raw.isNaN = false) ∧
      (g.heldFor 47 dt 2).pid.accumulator ≤ (g.heldFor 45.5 dt 2).pid.accumulator ∧
        (g.heldOutput 47 dt 1).current ≤ (g.heldOutput 45.5 dt 1).current) ∧
    Monotone cut ∧ l.Proper (fun k => 0 ≤ k.value) (fun d => 0 < d.value) ∧
      l.output (l.held ⟨⟨1⟩, ⟨1⟩⟩ ⟨47⟩ 1) ⟨47⟩ ≤ l.output (l.held ⟨⟨1⟩, ⟨1⟩⟩ ⟨45⟩ 1) ⟨45⟩ := by
  intro dt cut l
  have hc : ({} : Config).check = .ok () := rfl
  have hcut : Monotone cut := fun p q h => Int.cast_le.2 (Int.floor_mono h)
  have hl : l.Proper (fun k => 0 ≤ k.value) (fun d => 0 < d.value) := by
    constructor <;> decide +kernel
  obtain ⟨hruns, hlaw⟩ := drop_mono (σ := ScriptedStage)
  obtain ⟨r, hr, hheld⟩ := hruns {} [.operation (.tick 46 dt),
    .step ({ sensorFails := true } : ScriptedStage) dt, .operation (.tick 47.25 dt)] hc
    (by decide) (by decide) (by decide)
  refine ⟨⟨hc, r, hr, ?_⟩, hcut, hl, (hlaw cut l ⟨⟨1⟩, ⟨1⟩⟩ ⟨45⟩ ⟨47⟩ 1 hcut hl ?_).2⟩
  · cases hr
    refine ⟨?raw, hheld 45.5 47 dt 1 (by decide) (by decide) (by decide) ?raw⟩
    decide +kernel
  · change (45 : ℚ) ≤ 47
    norm_num

end Regulator
end BusRegen
