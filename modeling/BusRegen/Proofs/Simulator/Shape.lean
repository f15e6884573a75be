import BusRegen.Proofs.Regulator.Command
import BusRegen.Proofs.Simulator.Calls
import BusRegen.Proofs.Simulator.TickCount
/-!
# The shape of simulated traces

Whatever a simulator ran before, the trace of a run has a point for each tick of the duration, the
times begin at zero and do not go back (`Simulator.Shaped`), and every point says what the tick did
(`Simulator.SoundPoint`). A shorter duration has no more ticks, and what the ticks after them do
cannot be seen in the first ones. So its trace is the beginning of the longer one, and the only
durations that are refused are those of too many ticks (`Simulator.traces_shaped`).
-/
namespace BusRegen

open Scalar

namespace Simulator

variable {c : Config} {r : Regulator} {s s' : Simulator} {p : Profile} {d d' : Duration}

/-! ## The points -/

/-- What every point of a trace says under some settings. -/
structure SoundPoint (c : Config) (q : TracePoint) : Prop where
  zone : q.zone = Zone.classify q.voltage c
  active_iff : q.active = true ↔ q.zone = .regulating
  nonneg : 0 ≤ q.current
  le : q.current ≤ c.maxOutputCurrent
  active_of_driven : 0 < q.current → q.active = true

theorem soundPoint_tick (h : r.config.Valid) (v time : Float) (dt : TickPeriod) :
    SoundPoint r.config (pointOf time (r.tick v dt).1) := by
  have hzone := r.zone_tick v dt
  have hactive : (r.tick v dt).1.isRegulating = true ↔ (r.tick v dt).1.zone = .regulating := by
    rw [Output.isRegulating, Zone.isRegulating, beq_iff_eq]
  refine ⟨?_, hactive, ?_, Regulator.magnitude_tick_le h v dt, fun hdriven => hactive.2 ?_⟩
  · change (r.tick v dt).1.zone = Zone.classify (r.tick v dt).1.voltage r.config
    rw [r.voltage_tick, hzone]
  · change 0 ≤ (r.tick v dt).1.appliedCurrent
    rcases Regulator.tick_cases h v dt with ⟨hdead, happ, -⟩ | ⟨-, happ, -⟩
    · rw [happ]
      exact le_of_lt (lt_of_le_of_lt h.deadbandCurrent_nonneg hdead)
    · rw [happ]
      exact le_refl isNaN_zero
  · rcases Regulator.tick_cases h v dt with ⟨-, -, hrel⟩ | ⟨-, happ, -⟩
    · rw [hzone]
      exact Regulator.regulating_of_applied hrel
    · change 0 < (r.tick v dt).1.appliedCurrent at hdriven
      rw [happ] at hdriven
      exact absurd hdriven (by decide)

theorem soundPoint_drive (h : r.config.Valid) {dt : Float} {i n : Nat} {q : TracePoint}
    (hq : q ∈ (drive p dt r [] i n).1) : SoundPoint r.config q := by
  obtain ⟨g, j, hg, -, -, rfl⟩ := mem_drive p dt hq
  rw [← hg] at h ⊢
  exact soundPoint_tick h _ _ _

/-! ## The times -/

theorem sorted_drive (r : Regulator) (p : Profile) (dt : TickPeriod) (i n : Nat) :
    (drive p dt.seconds r [] i n).1.Pairwise (·.time ≤ ·.time) := by
  induction n generalizing r i with
  | zero => exact List.Pairwise.nil
  | succ n ih =>
    rw [drive_succ]
    refine List.pairwise_cons.2 ⟨fun q hq => ?_, ih _ _⟩
    obtain ⟨g, j, -, hj, -, rfl⟩ := mem_drive p dt.seconds hq
    obtain ⟨b, -, hb⟩ := dt.hasValue
    exact mul_mono_right hb (ofNat_mono (by omega))

theorem start_drive (r : Regulator) (p : Profile) (dt : TickPeriod) (n : Nat) :
    ∀ q ∈ (drive p dt.seconds r [] 0 n).1.head?, q.time = 0 := by
  cases n with
  | zero => exact fun q hq => by cases hq
  | succ n =>
    rw [drive_succ]
    intro q hq
    obtain rfl := Option.mem_some_iff.1 hq
    obtain ⟨b, -, hb⟩ := dt.hasValue
    have hzero : Float.ofNat 0 = Scalar.zero false := eq_of_kind_eq (by decide)
    change Float.ofNat 0 * dt.seconds = 0
    rw [hzero, hb.zero_mul, zero_false]

/-! ## Traces -/

/-- What every trace of a run is under some settings. -/
structure Shaped (c : Config) (t : Trace) : Prop where
  length_le : t.points.length ≤ maxTicks
  start : ∀ q ∈ t.points.head?, q.time = 0
  sorted : t.points.Pairwise (·.time ≤ ·.time)
  sound : ∀ q ∈ t.points, SoundPoint c q

variable {t : Trace}

theorem Reached.shaped (hs : Reached c s) (hrun : s.run p d = .ok (t, s')) :
    t.points.length = ticksFor d s.regulator.period ∧ Shaped c t := by
  have hle := le_of_run hrun
  obtain ⟨hv, rfl, -⟩ := hs.settings
  rw [Simulator.run_eq hle] at hrun
  cases hrun
  have hlength := length_drive p s.regulator.period.seconds s.regulator.reset.resetTelemetry 0
    (ticksFor d s.regulator.period)
  exact ⟨hlength, hlength.trans_le hle, start_drive _ _ _ _, sorted_drive _ _ _ _ _,
    fun q hq => soundPoint_drive (r := s.regulator.reset.resetTelemetry) hv hq⟩

/-- What a longer run makes of the same curve begins with the trace of a shorter one. -/
theorem Reached.extends (hs : Reached c s) {s₁ : Simulator} (hs₁ : Reached c s₁)
    {d₁ : Duration} (hd : d₁.nanoseconds ≤ d.nanoseconds) (hrun : s.run p d = .ok (t, s')) :
    ∃ t₁ s₁', s₁.run p d₁ = .ok (t₁, s₁') ∧ t₁.version = t.version ∧
      t₁.metadata = t.metadata ∧ t₁.points <+: t.points := by
  have hle := le_of_run hrun
  have hticks := ticksFor_mono hd s.regulator.period
  rw [hs₁.run_eq hs p d₁, Simulator.run_eq (hticks.trans hle)]
  rw [Simulator.run_eq hle] at hrun
  cases hrun
  exact ⟨_, _, rfl, rfl, rfl, prefix_drive _ _ _ _ hticks⟩

/-- **Shape and causality of traces.** From valid settings a simulator can be built. Whatever it ran
before, it refuses a duration if and only if the rounded quotient of the duration and the tick
period, which is always finite, is more than the greatest number of ticks. Otherwise the trace has
so many points, is of the right shape and begins with the trace of every shorter duration, which is
not refused either. -/
theorem traces_shaped (c : Config) (hc : c.check = .ok ()) :
    ∃ new, create c = .ok new ∧ ∀ s, Reached c s → ∀ (p : Profile) (d : Duration),
      let quotient := d.seconds / c.tickPeriod.seconds
      quotient.isFinite = true ∧
      ((∃ e, s.run p d = .error e) ↔ maxTicks < round (Scalar.value quotient)) ∧
      ∀ t s', s.run p d = .ok (t, s') →
        t.points.length = round (Scalar.value quotient) ∧ Shaped c t ∧
        ∀ s₁ d₁, Reached c s₁ → d₁.nanoseconds ≤ d.nanoseconds →
          ∃ t₁ s₁', s₁.run p d₁ = .ok (t₁, s₁') ∧ t₁.version = t.version ∧
            t₁.metadata = t.metadata ∧ t₁.points <+: t.points := by
  have hv : c.Valid := (Config.check_eq_ok_iff c).1 hc
  refine ⟨_, create_eq_ok hv, fun s hs p d => ?_⟩
  have hperiod : c.tickPeriod.seconds = s.regulator.period.seconds :=
    congrArg Duration.seconds hs.settings.2.2.symm
  dsimp only
  rw [hperiod, ← ticksFor_eq, run_eq_error_iff]
  refine ⟨isFinite_quotient d _, by norm_cast, fun t s' hrun => ?_⟩
  obtain ⟨hlength, hshaped⟩ := hs.shaped hrun
  exact ⟨by rw [hlength], hshaped, fun s₁ d₁ hs₁ hd => hs.extends hs₁ hd hrun⟩

/-- A drop for five ticks of the standard settings, and then for three. -/
theorem traces_shaped_standard :
    ∃ new t s', create {} = .ok new ∧
      new.run (.constant 46) ⟨5000000, by decide⟩ = .ok (t, s') ∧
      t.points.length = 5 ∧ Shaped {} t ∧
      ∃ t₁ s₁', s'.run (.constant 46) ⟨3000000, by decide⟩ = .ok (t₁, s₁') ∧
        t₁.points <+: t.points := by
  obtain ⟨new, hnew, h⟩ := traces_shaped {} rfl
  have hs : Reached {} new := .created hnew
  have hticks : ticksFor ⟨5000000, by decide⟩ new.regulator.period = 5 := by
    cases hnew
    decide
  have hrun := Simulator.run_eq (p := .constant 46) (hticks.trans_le (by decide))
  obtain ⟨-, -, hok⟩ := h new hs (.constant 46) ⟨5000000, by decide⟩
  obtain ⟨-, hshaped, hextends⟩ := hok _ _ hrun
  obtain ⟨t₁, s₁', hrun₁, -, -, hprefix⟩ :=
    hextends _ ⟨3000000, by decide⟩ (hs.ran hrun) (by decide)
  exact ⟨new, _, _, hnew, hrun, (hs.shaped hrun).1.trans hticks, hshaped, t₁, s₁', hrun₁, hprefix⟩

end Simulator
end BusRegen
