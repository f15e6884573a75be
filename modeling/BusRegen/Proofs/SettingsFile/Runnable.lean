import BusRegen.SettingsFile.Text
import BusRegen.Stage.Scripted
import BusRegen.Proofs.Duration
import BusRegen.Loop.Runner
import BusRegen.Proofs.ValidConfig
/-!
# Settings files that can be run

The check of a settings file looks at the controller settings alone. A runner is more demanding: its
multiplier has to be a number from one on, a limit of iterations must not be zero, and the time that
counts as an overrun has to be a duration. `LoopSettings.Fits` says this of loop settings and the
time between two ticks, and it is all that can go wrong: an accepted file can be run if its loop
settings fit its tick period, and is refused for them if not (`SettingsFile.runs_iff_fits`).

Up to a multiplier of `2 ^ 16` no period that a file can name is too long
(`SettingsFile.fits_of_le`).
-/
namespace BusRegen

open Scalar

namespace LoopSettings

/-- The settings of a loop that can be run with this time between two ticks. -/
structure Fits (l : LoopSettings) (d : Duration) : Prop where
  finite : l.overrunMultiplier.isFinite = true
  one_le : 1 ≤ l.overrunMultiplier
  iterations : l.maxIterations ≠ some 0
  limit_lt : d.seconds * l.overrunMultiplier < 18446744073709551616

variable {l : LoopSettings}

theorem check_eq_ok_iff : l.check = .ok () ↔
    l.overrunMultiplier.isFinite = true ∧ 1 ≤ l.overrunMultiplier ∧ l.maxIterations ≠ some 0 := by
  unfold check
  split
  · next h => exact iff_of_false (fun h' => by cases h') fun h' => h ⟨h'.1, h'.2.1⟩
  · next h =>
    rw [Decidable.not_not] at h
    split
    · next h0 => exact iff_of_false (fun h' => by cases h') fun h' => h'.2.2 h0
    · next h0 => exact iff_of_true rfl ⟨h.1, h.2, h0⟩

theorem hasValue_multiplier (hf : l.overrunMultiplier.isFinite = true)
    (h1 : 1 ≤ l.overrunMultiplier) :
    HasValue l.overrunMultiplier (value l.overrunMultiplier) :=
  hasValue_value hf (lt_of_lt_of_le (by decide) h1)

/-- The limit is computed from two positive numbers, so nothing but its size is in question. -/
theorem overrunLimit_eq_ok_iff (p : TickPeriod) (hf : l.overrunMultiplier.isFinite = true)
    (h1 : 1 ≤ l.overrunMultiplier) : (∃ d, l.overrunLimit p = .ok d) ↔
      p.duration.seconds * l.overrunMultiplier < 18446744073709551616 := by
  obtain ⟨q, -, hp⟩ := p.hasValue
  rw [TickPeriod.seconds] at hp
  rw [← Duration.ofSeconds?_isSome_iff (hp.mul_nonneg (hasValue_multiplier hf h1)), overrunLimit,
    TickPeriod.seconds]
  cases Duration.ofSeconds? (p.duration.seconds * l.overrunMultiplier) with
  | none => simp
  | some d => simp

end LoopSettings

namespace Runner

variable {σ : Type} {c : Config} {l : LoopSettings} {s : σ}

/-- With valid controller settings only those of the loop can be at fault. -/
theorem create_cases (hc : c.Valid) :
    (∃ e, l.check = .error e ∧ create c l s = .error (.loop e)) ∨
    l.check = .ok () ∧
      ((∃ e, l.overrunLimit ⟨c.tickPeriod, hc.tickPeriod_nonzero⟩ = .error e ∧
        create c l s = .error (.loop e)) ∨
      ∃ d r, l.overrunLimit ⟨c.tickPeriod, hc.tickPeriod_nonzero⟩ = .ok d ∧
        create c l s = .ok r) := by
  unfold create
  rw [Regulator.create_eq hc]
  cases l.check with
  | error e => exact .inl ⟨e, rfl, rfl⟩
  | ok u =>
    refine .inr ⟨rfl, ?_⟩
    change (∃ e, _ ∧ (l.overrunLimit _).mapError RunnerError.loop >>= _ = _) ∨
      ∃ d r, _ ∧ (l.overrunLimit _).mapError RunnerError.loop >>= _ = _
    cases l.overrunLimit ⟨c.tickPeriod, hc.tickPeriod_nonzero⟩ with
    | error e => exact .inl ⟨e, rfl, rfl⟩
    | ok d => exact .inr ⟨d, _, rfl, rfl⟩

theorem create_eq_ok_iff (hc : c.Valid) :
    (∃ r, create c l s = .ok r) ↔ l.Fits c.tickPeriod := by
  have hlimit := LoopSettings.overrunLimit_eq_ok_iff (l := l) ⟨c.tickPeriod, hc.tickPeriod_nonzero⟩
  rcases create_cases (l := l) (s := s) hc with
    ⟨e, hl, h⟩ | ⟨hl, ⟨e, he, h⟩ | ⟨d, r, hd, h⟩⟩
  · refine iff_of_false (by simp [h]) fun hfits => ?_
    rw [LoopSettings.check_eq_ok_iff.2 ⟨hfits.finite, hfits.one_le, hfits.iterations⟩] at hl
    cases hl
  · refine iff_of_false (by simp [h]) fun hfits => ?_
    obtain ⟨d, hd⟩ := (hlimit hfits.finite hfits.one_le).2 hfits.limit_lt
    rw [he] at hd
    cases hd
  · obtain ⟨hf, h1, h0⟩ := LoopSettings.check_eq_ok_iff.1 hl
    exact iff_of_true ⟨r, h⟩ ⟨hf, h1, h0, (hlimit hf h1).1 ⟨d, hd⟩⟩

theorem create_eq_error (hc : c.Valid) (h : ¬ l.Fits c.tickPeriod) :
    ∃ e, create c l s = .error (.loop e) := by
  rcases create_cases (l := l) (s := s) hc with ⟨e, -, he⟩ | ⟨-, ⟨e, -, he⟩ | ⟨d, r, -, hr⟩⟩
  · exact ⟨e, he⟩
  · exact ⟨e, he⟩
  · exact absurd ((create_eq_ok_iff hc).1 ⟨r, hr⟩) h

end Runner

namespace SettingsFile

variable {text : String} {f : SettingsFile} {c : Config}

/-- The text is one of a settings file with these controller settings, and they are valid. -/
structure Accepted (text : String) (f : SettingsFile) (c : Config) : Prop where
  read : ofText? text = some f
  config : f.config = .ok c

theorem valid_of_config (h : f.config = .ok c) :
    c.Valid ∧ c.tickPeriod = .ofMicroseconds f.regulator.tickMicros := by
  unfold SettingsFile.config at h
  cases hck : f.regulator.toConfig.check with
  | error e =>
    rw [hck] at h
    cases h
  | ok u =>
    rw [hck] at h
    cases h
    exact ⟨(Config.check_eq_ok_iff _).1 hck, f.regulator.tickPeriod_toConfig⟩

/-! ## Multipliers that fit every period -/

theorem hasValue_ofMicroseconds {us : UInt64} (h : us ≠ 0) :
    ∃ q ≤ (2 : ℚ) ^ (47 : Int), HasValue (Duration.ofMicroseconds us).seconds q := by
  have h0 : 0 < us.toNat := Nat.pos_of_ne_zero fun h' => h (UInt64.toNat_inj.1 h')
  have hlt := us.toNat_lt
  refine Duration.hasValue_seconds (k := 45) ?_ ?_ (by norm_num)
  · rw [Duration.nanoseconds_ofMicroseconds]
    omega
  · rw [Duration.nanoseconds_ofMicroseconds]
    omega

theorem tickMicros_ne_zero (h : f.config = .ok c) : f.regulator.tickMicros ≠ 0 := by
  obtain ⟨hc, hperiod⟩ := valid_of_config h
  intro h0
  have hzero := hc.tickPeriod_nonzero
  rw [hperiod, h0] at hzero
  exact absurd hzero (by decide)

theorem maxIterations_ne_zero (h : f.loop.maxIterations ≠ some 0) :
    f.loopSettings.maxIterations ≠ some 0 := by
  intro h0
  obtain ⟨n, hn, hz⟩ := Option.map_eq_some_iff.1 h0
  exact h (hn.trans (congrArg some (UInt64.toNat_inj.1 hz)))

/-- A period that a file can name is less than `2 ^ 47` seconds, so up to `2 ^ 16` a multiplier
leaves room. -/
theorem fits_of_le (h : f.config = .ok c) (h1 : 1 ≤ f.loop.overrunMultiplier)
    (hmax : f.loop.overrunMultiplier ≤ 65536) (h0 : f.loop.maxIterations ≠ some 0) :
    f.loopSettings.Fits (.ofMicroseconds f.regulator.tickMicros) := by
  have hmost : HasValue 65536 (2 ^ (16 : Int)) :=
    hasValue_of_kind (m := 2 ^ 52) (e := -36) (by decide) (by norm_num) (by norm_num)
  have hend : HasValue 9223372036854775808 (2 ^ 63) :=
    hasValue_of_kind (m := 2 ^ 52) (e := 11) (by decide +kernel) (by norm_num) (by norm_num)
  have hf := isFinite_of_mem (by decide) hmost.isFinite h1 hmax
  have hm := LoopSettings.hasValue_multiplier (l := f.loopSettings) hf h1
  have hvalue := (le_iff_value hf hmost.isFinite).1 hmax
  rw [hmost.value_eq] at hvalue
  obtain ⟨q, hq, hp⟩ := hasValue_ofMicroseconds (tickMicros_ne_zero h)
  have hproduct : q * value f.loop.overrunMultiplier ≤ 2 ^ 63 :=
    calc q * value f.loop.overrunMultiplier ≤ 2 ^ (47 : Int) * 2 ^ (16 : Int) :=
          mul_le_mul hq hvalue (leastUnit_pos.le.trans hm.leastUnit_le) (by positivity)
      _ = 2 ^ 63 := by norm_num
  exact ⟨hf, h1, maxIterations_ne_zero h0,
    lt_of_le_of_lt (hp.mul_le hm hend hproduct) (by decide +kernel)⟩

/-! ## Accepted files -/

/-- What a text sets is found by reading it. -/
theorem exists_accepted (text : String) (l : LoopSection)
    (h : (ofText? text).map (fun f => (f.loop, f.regulator.toConfig.fault?.isNone)) =
      some (l, true)) : ∃ f c, Accepted text f c ∧ f.loop = l := by
  obtain ⟨f, hf, hl⟩ := Option.map_eq_some_iff.1 h
  obtain ⟨rfl, hnone⟩ := Prod.mk.inj hl
  have hvalid := (Config.fault?_eq_none_iff _).1 (Option.isNone_iff_eq_none.1 hnone)
  refine ⟨f, f.regulator.toConfig, ⟨hf, ?_⟩, rfl⟩
  rw [config, (Config.check_eq_ok_iff _).2 hvalid]
  rfl

/-- An accepted file can be run if its loop settings fit its tick period, and is refused for them if
not. -/
theorem runs_iff_fits {σ : Type} (h : Accepted text f c) (s : σ) :
    ((∃ r, Runner.create c f.loopSettings s = .ok r) ↔
      f.loopSettings.Fits (.ofMicroseconds f.regulator.tickMicros)) ∧
    (¬ f.loopSettings.Fits (.ofMicroseconds f.regulator.tickMicros) →
      ∃ e, Runner.create c f.loopSettings s = .error (.loop e)) := by
  obtain ⟨hc, hperiod⟩ := valid_of_config h.config
  rw [← hperiod]
  exact ⟨Runner.create_eq_ok_iff hc, Runner.create_eq_error hc⟩

theorem runs_iff_fits_once : ∃ f c, Accepted "[loop]\nmax_iterations = 1\n" f c ∧
    ∃ r, Runner.create c f.loopSettings ({} : ScriptedStage) = .ok r := by
  obtain ⟨f, c, h, hl⟩ := exists_accepted "[loop]\nmax_iterations = 1\n" ⟨2.0, some 1, false⟩
    (by decide +kernel)
  have hfits := fits_of_le h.config (by rw [hl]; decide) (by rw [hl]; decide) (by rw [hl]; decide)
  exact ⟨f, c, h, (runs_iff_fits h _).1.2 hfits⟩

/-- A multiplier below one is accepted and cannot be run. -/
theorem not_always_run : ∃ f c,
    Accepted "[loop]\ndt_clamp_multiplier = 0.5\nmax_iterations = 3\n" f c ∧
    Runner.create c f.loopSettings ({} : ScriptedStage) = .error (.loop (.multiplier 0.5)) := by
  obtain ⟨f, c, h, hl⟩ := exists_accepted
    "[loop]\ndt_clamp_multiplier = 0.5\nmax_iterations = 3\n" ⟨0.5, some 3, false⟩
    (by decide +kernel)
  refine ⟨f, c, h, ?_⟩
  have hs : f.loopSettings = ⟨0.5, some 3, false⟩ := by rw [loopSettings, hl]; rfl
  rw [hs]
  rfl

end SettingsFile
end BusRegen
