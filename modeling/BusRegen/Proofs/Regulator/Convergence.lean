import BusRegen.Proofs.Regulator.VoltageDrop
/-!
# A voltage that is held is answered by a steady current

At a voltage of the regulating zone no tick takes anything off the integral, and the integral has a
limit. As there are only so many scalars from zero to the limit, some tick leaves it as it was
(`exists_settled`), be it at the limit or because the next step is rounded away.

From the second tick of the hold on the error is that of the tick before, so the derivative is the
same in every raw output and only the integral is left to change them: under a gain `ki` that is not
negative they go up with it, until it stays. `hold_converges` says so of every state that a
regulator can come into.
-/
namespace BusRegen

namespace Scalar

theorem rank_zeros (n : Bool) : rank (zero n) = 0 := by cases n <;> decide

theorem exists_zero_of_rank {x : Float} (hx : x.isFinite = true) (h : rank x = 0) :
    ∃ n, x = zero n := by
  rcases finite_cases hx with hzero | ⟨d, hd, hpos⟩
  · exact hzero
  · obtain ⟨-, -, hz⟩ := fields_bounds (canonical_of_kind hd)
    rw [rank, hd, ScalarKind.rank, Dyadic.rank] at h
    cases hn : d.negative <;> rw [hn] at h <;> simp only [signed_true, signed_false] at h <;> omega

theorem clamp_of_mem {low high x : Float} (hlow : low ≤ x) (hhigh : x ≤ high) :
    clamp low high x = x := by
  obtain ⟨hl, hx, -⟩ := (le_iff low x).1 hlow
  obtain ⟨-, hh, -⟩ := (le_iff x high).1 hhigh
  simp only [clamp, if_neg ((not_lt_iff hx hl).2 hlow), if_neg ((not_lt_iff hh hx).2 hhigh)]

/-- A limited step from a zero leads to one scalar from either zero, or nowhere. -/
theorem clamp_zero_add {low high : Float} (hlow : low ≤ 0) (hhigh : 0 ≤ high) (d : Float) :
    (∀ n n', clamp low high (zero n + d) = clamp low high (zero n' + d)) ∨
      ∀ n, clamp low high (zero n + d) = zero n := by
  by_cases hd : d = zero true
  · right
    intro n
    have hsum : zero n + d = zero n := by
      rw [hd]
      cases n <;> exact eq_of_kind_eq (by decide)
    have hnum : (zero n).isNaN = false := by cases n <;> decide
    rw [le_iff, rank_zero, ← rank_zeros n] at hlow hhigh
    rw [hsum]
    exact clamp_of_mem ((le_iff _ _).2 ⟨hlow.1, hnum, hlow.2.2⟩)
      ((le_iff _ _).2 ⟨hnum, hhigh.2.1, hhigh.2.2⟩)
  · left
    intro n n'
    rw [zero_add_eq hd, zero_add_eq hd]

end Scalar

open Scalar

namespace Pid

variable {s : Pid} {limit error : Float}

/-- A tick at an error that is not negative takes nothing off the integral. -/
theorem OneSided.le_update (h : s.OneSided limit) (hfin : limit.isFinite = true)
    (hlimit : 0 ≤ limit) (herror : 0 ≤ error) (dt : TickPeriod) (g : Gains) :
    s.accumulator ≤ (s.update error dt g limit).2.accumulator := by
  obtain ⟨q, -, hdt⟩ := dt.hasValue
  have hw := h.within hlimit
  have hstep := self_le_add (hw.isFinite hfin) (zero_le_mul herror hdt)
  have hmono := ControlLaw.clamp_mono rounds_scalar (neg_le_self hlimit) hstep
  have hhere : ControlLaw.clamp (-limit) limit s.accumulator = s.accumulator :=
    clamp_of_mem hw.lower hw.upper
  rwa [hhere] at hmono

/-- If a tick does not change the rank of the integral, it leaves the integral as it was, or the
next one does. -/
theorem OneSided.settles (h : s.OneSided limit) (hfin : limit.isFinite = true) (hlimit : 0 ≤ limit)
    (herror : 0 ≤ error) {dt : TickPeriod} {g : Gains} {t : Pid}
    (heq : t = (s.update error dt g limit).2) (hrank : rank t.accumulator = rank s.accumulator) :
    t.accumulator = s.accumulator ∨ (t.update error dt g limit).2.accumulator = t.accumulator := by
  have ht : t.OneSided limit := heq ▸ h.update hfin hlimit herror dt g
  have hfs := (h.within hlimit).isFinite hfin
  have hft := (ht.within hlimit).isFinite hfin
  rcases eq_or_ne (rank s.accumulator) 0 with h0 | h0
  · -- Both integrals are zeros, of whatever signs.
    obtain ⟨n, hn⟩ := exists_zero_of_rank hfs h0
    obtain ⟨n', hn'⟩ := exists_zero_of_rank hft (hrank.trans h0)
    have hnext : t.accumulator = clamp (-limit) limit (Scalar.zero n + error * dt.seconds) := by
      rw [← hn, heq]
      rfl
    have hafter : (t.update error dt g limit).2.accumulator =
        clamp (-limit) limit (Scalar.zero n' + error * dt.seconds) := by
      rw [← hn']
      rfl
    rcases clamp_zero_add ((neg_nonpos_iff limit).2 hlimit) hlimit (error * dt.seconds) with
      hsame | hstay
    · exact .inr (hafter.trans ((hsame n' n).trans hnext.symm))
    · exact .inl (hnext.trans ((hstay n).trans hn.symm))
  · exact .inl (eq_of_rank_eq (isNaN_of_isFinite hft) (isNaN_of_isFinite hfs) hrank (hrank ▸ h0))

end Pid

namespace Regulator

variable {c : Config} {g : Regulator} {v : Float} {Q : Pid → Prop}

theorem Keeps.heldFor (hQ : PidInvariant c Q) (h : g.Keeps c Q) (v : Float)
    (dt : TickPeriod) (n : Nat) : (g.heldFor v dt n).Keeps c Q := by
  induction n with
  | zero => exact h
  | succ n ih => exact ih.perform hQ _ (.tick v dt)

theorem Keeps.pid_heldFor (hg : g.Keeps c Q) (hz : Zone.classify v c = .regulating)
    (dt : TickPeriod) (n : Nat) :
    (g.heldFor v dt (n + 1)).pid =
      ((g.heldFor v dt n).pid.update (c.targetVoltage - v) dt c.gains c.integralLimit).2 := by
  obtain ⟨rfl, -⟩ := hg
  exact Regulator.pid_heldFor dt hz n

theorem Keeps.heldOutput (hg : g.Keeps c Q) (hz : Zone.classify v c = .regulating)
    (dt : TickPeriod) (n : Nat) :
    g.heldOutput v dt n =
      let terms :=
        ((g.heldFor v dt n).pid.update (c.targetVoltage - v) dt c.gains c.integralLimit).1
      regulated c v terms (clamp 0 c.maxOutputCurrent terms.raw) := by
  obtain ⟨rfl, -⟩ := hg
  exact heldOutput_eq dt hz n

/-! ## The integral -/

theorem pid_heldFor_succ (hg : g.Keeps c Q) (hz : Zone.classify v c = .regulating)
    (dt : TickPeriod) (n : Nat) :
    (g.heldFor v dt (n + 1)).pid =
      { accumulator := (g.heldFor v dt (n + 1)).pid.accumulator
        previousError := c.targetVoltage - v } := by
  rw [hg.pid_heldFor hz]
  rfl

section
variable (h : c.Valid) (hg : g.Keeps c (Pid.OneSided c.integralLimit))
  (hz : Zone.classify v c = .regulating) (dt : TickPeriod)

include h hg hz in
theorem accumulator_heldFor_le (n : Nat) :
    (g.heldFor v dt n).pid.accumulator ≤ (g.heldFor v dt (n + 1)).pid.accumulator := by
  have hn := hg.heldFor (oneSided_invariant h) v dt n
  rw [hg.pid_heldFor hz]
  exact hn.pid.le_update (h.finite .integralLimit) h.integralLimit_nonneg (Pid.error_nonneg h hz) dt
    c.gains

include h hg hz in
/-- From the second tick on the integral cannot go up forever. -/
theorem exists_rank_eq :
    ∃ k, rank (g.heldFor v dt (k + 1 + 1)).pid.accumulator =
      rank (g.heldFor v dt (k + 1)).pid.accumulator := by
  by_contra hnot
  push Not at hnot
  let room (k : Nat) : Nat :=
    (rank c.integralLimit - rank (g.heldFor v dt (k + 1)).pid.accumulator).toNat
  refine not_strictAnti_of_wellFoundedLT room (strictAnti_nat_of_succ_lt fun k => ?_)
  have hup := ((le_iff _ _).1 (accumulator_heldFor_le h hg hz dt (k + 1))).2.2
  have hnext := (hg.heldFor (oneSided_invariant h) v dt (k + 1 + 1)).pid.upper
  have hlimit := ((le_iff _ _).1 hnext).2.2
  have hne := hnot k
  dsimp only [room]
  omega

include h hg hz in
/-- Some tick leaves the PID memory as it was. -/
theorem exists_settled :
    ∃ k, (g.heldFor v dt (k + 1)).pid = (g.heldFor v dt k).pid := by
  obtain ⟨k, hk⟩ := exists_rank_eq h hg hz dt
  have hpid := hg.pid_heldFor hz dt
  have hside := (hg.heldFor (oneSided_invariant h) v dt (k + 1)).pid
  have hsettles := hside.settles (h.finite .integralLimit) h.integralLimit_nonneg
    (Pid.error_nonneg h hz) (hpid (k + 1)) hk
  rw [← hpid (k + 1 + 1)] at hsettles
  rcases hsettles with heq | heq
  · refine ⟨k + 1, ?_⟩
    rw [pid_heldFor_succ hg hz dt (k + 1), pid_heldFor_succ hg hz dt k, heq]
  · refine ⟨k + 1 + 1, ?_⟩
    rw [pid_heldFor_succ hg hz dt (k + 1 + 1), pid_heldFor_succ hg hz dt (k + 1), heq]

end

/-! ## The output -/

/-- The raw output of a tick in the regulating zone, by the integral that the tick leaves. -/
theorem raw_heldOutput_eq (hg : g.Keeps c Q) (hz : Zone.classify v c = .regulating)
    (dt : TickPeriod) (n : Nat) :
    (g.heldOutput v dt (n + 1)).terms.raw =
      c.gains.kp * (c.targetVoltage - v) +
        c.gains.ki * (g.heldFor v dt (n + 1 + 1)).pid.accumulator +
        c.gains.kd * (c.targetVoltage - v - (c.targetVoltage - v)) / dt.seconds := by
  rw [hg.heldOutput hz, hg.pid_heldFor hz dt (n + 1), pid_heldFor_succ hg hz dt n]
  rfl

/-- From the second tick on the raw output goes up with the integral. -/
theorem raw_heldOutput_le (h : c.Valid) (hki : 0 ≤ c.gains.ki)
    (hg : g.Keeps c (Pid.OneSided c.integralLimit)) (hz : Zone.classify v c = .regulating)
    (dt : TickPeriod) (n : Nat) (hraw : (g.heldOutput v dt (n + 1)).terms.raw.isFinite = true)
    (hraw' : (g.heldOutput v dt (n + 1 + 1)).terms.raw.isFinite = true) :
    (g.heldOutput v dt (n + 1)).terms.raw ≤ (g.heldOutput v dt (n + 1 + 1)).terms.raw := by
  have hup := accumulator_heldFor_le h hg hz dt (n + 1 + 1)
  rw [raw_heldOutput_eq hg hz dt] at hraw hraw' ⊢
  rw [raw_heldOutput_eq hg hz dt]
  obtain ⟨hpi, hd⟩ := isFinite_of_add hraw
  obtain ⟨hpi', -⟩ := isFinite_of_add hraw'
  obtain ⟨hp, hi⟩ := isFinite_of_add hpi
  obtain ⟨-, hi'⟩ := isFinite_of_add hpi'
  have hintegral := mul_mono_left hki (h.finite .ki) hup (isNaN_of_isFinite hi)
    (isNaN_of_isFinite hi')
  have hsum := add_mono ((isNumber_iff _).2 (isNaN_of_isFinite hp)) hintegral
    (isNaN_of_isFinite hpi) (isNaN_of_isFinite hpi')
  exact add_mono hsum ((isNumber_iff _).2 (isNaN_of_isFinite hd)) (isNaN_of_isFinite hraw)
    (isNaN_of_isFinite hraw')

/-- **A held voltage is answered by a steady current.** A regulator with valid settings and no
negative `ki`, in any state that it can come into, is held at a voltage of the regulating zone. As
long as the raw outputs are finite its integral never goes down, from the second tick on neither
does its output, which the limit bounds, and after some tick all outputs are the same. -/
theorem hold_converges {σ : Type} [PowerStage σ] (c : Config) (us : List (Use σ))
    (hc : c.check = .ok ()) (hki : 0 ≤ c.gains.ki) :
    ∃ r, create c = .ok r ∧ ∀ (v : Float) (dt : TickPeriod),
      c.minimumVoltage < v → v < c.thresholdVoltage →
      let g := r.after us
      (∀ n, (g.heldOutput v dt n).terms.raw.isFinite = true) →
        (∀ n, (g.heldOutput v dt (n + 1)).current ≤ (g.heldOutput v dt (n + 2)).current) ∧
        (∀ n, (g.heldOutput v dt n).current ≤ c.maxOutputCurrent) ∧
        (∀ n, (g.heldFor v dt n).pid.accumulator ≤ (g.heldFor v dt (n + 1)).pid.accumulator) ∧
        ∃ N, ∀ n ≥ N, g.heldOutput v dt n = g.heldOutput v dt N := by
  have hv : c.Valid := (Config.check_eq_ok_iff c).1 hc
  have hnew := create_eq hv
  have hinv := oneSided_invariant hv
  refine ⟨_, hnew, fun v dt hmin hthr => ?_⟩
  have hg := after_induction (Keeps.perform hinv) (keeps_of_create hinv hnew) us
  generalize after _ us = g at hg
  have hz := Zone.classify_of_mem hv hmin hthr
  have hlimit : 0 ≤ c.maxOutputCurrent := le_of_lt hv.maxOutputCurrent_pos
  intro g' hraw
  have hcurrent (n : Nat) : (g.heldOutput v dt n).current =
      clamp 0 c.maxOutputCurrent (g.heldOutput v dt n).terms.raw := by
    rw [hg.heldOutput hz]
    rfl
  refine ⟨fun n => ?_, fun n => ?_, accumulator_heldFor_le hv hg hz dt, ?_⟩
  · rw [hcurrent, hcurrent]
    exact ControlLaw.clamp_mono rounds_scalar hlimit
      (raw_heldOutput_le hv hki hg hz dt n (hraw _) (hraw _))
  · rw [hcurrent]
    exact (clamp_mem hlimit (isNaN_of_isFinite (hraw _))).2
  · obtain ⟨k, hk⟩ := exists_settled hv hg hz dt
    exact ⟨k, fun n hn => heldOutput_congr g v dt (heldFor_of_fixed g v dt hk hn)⟩

/-- Held at 46 V for three seconds a tick, the integral is at its limit after two ticks. -/
theorem hold_converges_standard :
    let dt : TickPeriod := ⟨.ofMicroseconds 3000000, rfl⟩
    ({} : Config).check = .ok () ∧ ∃ r, create {} = .ok r ∧
      let g := r.after [.operation (.tick 46 dt),
        .step ({ sensorFails := true } : ScriptedStage) dt, .operation (.tick 47.25 dt)]
      (∀ n, (g.heldOutput 46 dt n).terms.raw.isFinite = true) ∧
        (∀ n, (g.heldOutput 46 dt (n + 1)).current ≤ (g.heldOutput 46 dt (n + 2)).current) ∧
        ∃ N, ∀ n ≥ N, g.heldOutput 46 dt n = g.heldOutput 46 dt N := by
  intro dt
  have hc : ({} : Config).check = .ok () := rfl
  obtain ⟨r, hr, hheld⟩ := hold_converges (σ := ScriptedStage) {} [.operation (.tick 46 dt),
    .step ({ sensorFails := true } : ScriptedStage) dt, .operation (.tick 47.25 dt)] hc (by decide)
  refine ⟨hc, r, hr, ?_⟩
  cases hr
  intro g
  have hfixed : (g.heldFor 46 dt 3).pid = (g.heldFor 46 dt 2).pid := by
    rw [Pid.mk.injEq]
    decide +kernel
  have hraw (n : Nat) : (g.heldOutput 46 dt n).terms.raw.isFinite = true := by
    match n with
    | 0 => decide +kernel
    | 1 => decide +kernel
    | n + 2 =>
      rw [heldOutput_congr g 46 dt (heldFor_of_fixed g 46 dt hfixed (Nat.le_add_left 2 n))]
      decide +kernel
  obtain ⟨hcurrent, -, -, hsteady⟩ := hheld 46 dt (by decide) (by decide) hraw
  exact ⟨hraw, hcurrent, hsteady⟩

end Regulator
end BusRegen
