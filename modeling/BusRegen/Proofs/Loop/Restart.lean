import BusRegen.Proofs.Loop.History
import BusRegen.Proofs.Regulator.Memory
/-!
# Starting over

A start resets the regulator, so a run has nothing from the runs before it but the telemetry, the
metrics and the stage. This is shown by two runners side by side, one with a history and a new one
on the same stage (`Twins.run`): after a start of both they differ in telemetry and metrics only,
and no event tells them apart. Nothing is asked of the stage; it may fail and crash.

`history_erased` takes this together with what is true of a regulator without a runner: once it has
left the regulating zone its past makes no difference.
-/
namespace BusRegen

/-- The statuses differ in the telemetry at most. -/
structure Status.Twins (s s' : Status) : Prop where
  voltage : s.voltage = s'.voltage
  zone : s.zone = s'.zone
  outputCurrent : s.outputCurrent = s'.outputCurrent
  appliedCurrent : s.appliedCurrent = s'.appliedCurrent

namespace Status

theorem twins_ofRegulator {g g' : Regulator} (h : g.Twins g') :
    (ofRegulator g).Twins (ofRegulator g') := by
  unfold ofRegulator
  rw [h.last]
  split <;> exact ⟨rfl, rfl, rfl, rfl⟩

theorem Twins.markReleased {s s' : Status} (h : s.Twins s') :
    s.markReleased.Twins s'.markReleased := by
  refine ⟨h.voltage, ?_, rfl, rfl⟩
  unfold Status.markReleased
  rw [h.zone]

end Status

namespace Runner

variable {σ ι : Type}

/-- What a runner is made from, and keeps. -/
structure SameSetup (r r' : Runner σ) : Prop where
  config : r.config = r'.config
  settings : r.settings = r'.settings
  period : r.period = r'.period
  overrunLimit : r.overrunLimit = r'.overrunLimit
  regulatorConfig : r.regulator.config = r'.regulator.config
  regulatorPeriod : r.regulator.period = r'.regulator.period

/-- The runners differ in the telemetry of their regulators, the copy of it in the status and the
metrics at most. -/
inductive Twins (r : Runner σ) : Runner σ → Prop where
  | intro {g : Regulator} {st : Status} (m : Metrics) (regulator : r.regulator.Twins g)
      (status : r.status.Twins st) :
      Twins r { r with regulator := g, status := st, metrics := m }

/-! ## Twins stay twins -/

section
variable {r r' : Runner σ}

theorem Twins.sameSetup (h : Twins r r') : SameSetup r r' := by
  cases h with
  | intro m hg hst => exact ⟨rfl, rfl, rfl, rfl, hg.config, hg.period⟩

theorem Twins.stage_eq (h : Twins r r') : r'.stage = r.stage := by
  cases h with
  | intro m hg hst => rfl

theorem Twins.running_eq (h : Twins r r') : r'.running = r.running := by
  cases h with
  | intro m hg hst => rfl

theorem Twins.worker_eq (h : Twins r r') : r'.worker = r.worker := by
  cases h with
  | intro m hg hst => rfl

theorem Twins.dismissed (h : Twins r r') : Twins r.dismissed r'.dismissed := by
  cases h with
  | intro m hg hst => exact .intro m hg hst

/-- Two runners with the same setup and the same stage are twins after a start. -/
theorem SameSetup.twins_begun (h : SameSetup r r') (hs : r'.stage = r.stage) :
    Twins r.begun r'.begun := by
  have hg := Regulator.twins_reset h.regulatorConfig h.regulatorPeriod
  have hbegun : r'.begun =
      { r.begun with
        regulator := r'.regulator.reset, status := .ofRegulator r'.regulator.reset
        metrics := r'.metrics } := by
    unfold begun
    rw [h.config, h.settings, h.period, h.overrunLimit, hs]
  rw [hbegun]
  exact .intro r'.metrics hg (Status.twins_ofRegulator hg)

theorem Twins.unspawned (h : Twins r r') : Twins r.unspawned r'.unspawned := by
  cases h with
  | intro m hg hst =>
    have hreset := Regulator.twins_reset hg.config hg.period
    exact .intro m hreset (Status.twins_ofRegulator hreset)

theorem Twins.resetTelemetry (h : Twins r r') : Twins r.resetTelemetry r'.resetTelemetry := by
  cases h with
  | intro m hg hst =>
    obtain ⟨⟨hc, hp, hpid⟩, hlast⟩ := hg
    exact .intro m ⟨⟨hc, hp, hpid⟩, hlast⟩ (Status.twins_ofRegulator ⟨⟨hc, hp, hpid⟩, hlast⟩)

variable [PowerStage σ]

theorem Twins.halt (h : Twins r r') : Twins r.halt r'.halt := by
  cases h with
  | intro m hg hst =>
    unfold Runner.halt
    dsimp only
    cases (PowerStage.release r.stage).1 with
    | crash => exact .intro m hg hst
    | done | fault => exact .intro _ hg hst.markReleased

theorem Twins.finish (h : Twins r r') : Twins r.finish r'.finish := by
  have hhalt := h.halt
  unfold Runner.finish
  generalize r.halt = a at hhalt
  generalize r'.halt = b at hhalt
  cases hhalt with
  | intro m hg hst => exact .intro m hg hst

theorem Twins.complete (h : Twins r r') : Twins r.complete r'.complete := by
  unfold Runner.complete
  rw [h.stage_eq]
  cases (PowerStage.release r.stage).1 with
  | crash => exact h.halt.finish
  | done | fault => exact h.finish

theorem Twins.stop (h : Twins r r') (hc : r.Coherent) : Twins r.stop r'.stop := by
  have hrun' := h.running_eq
  cases hr : r.running with
  | false =>
    rw [stop_of_resting hr, stop_of_resting (hrun'.trans hr)]
    exact h.dismissed
  | true =>
    obtain ⟨n, hw⟩ := hc.worker hr
    rw [stop_of_running hr hw, stop_of_running (hrun'.trans hr) (h.worker_eq.trans hw)]
    exact h.finish.dismissed

/-- A turn of the worker: twins make the same step on the same stage. -/
theorem Twins.tick (h : Twins r r') (hc : r.Coherent) : Twins r.tick r'.tick := by
  cases hr : r.running with
  | false =>
    rw [tick_of_resting hr, tick_of_resting (h.running_eq.trans hr)]
    exact h
  | true =>
    obtain ⟨n, hw⟩ := hc.worker hr
    have hgo : ¬ (r.running = false ∨ r.halted = true) := by simp [hr, hc.halted_eq]
    cases h with
    | @intro g st m hg hst =>
      have hgo' : ¬ ({ r with regulator := g, status := st, metrics := m }.running = false ∨
        { r with regulator := g, status := st, metrics := m }.halted = true) := hgo
      have hw' : { r with regulator := g, status := st, metrics := m }.worker = some n := hw
      obtain ⟨hstage, hout, htwins⟩ := hg.step r.stage r.period
      rw [tick_of_running hgo hw, tick_of_running hgo' hw']
      dsimp only
      rw [← hout, ← hstage]
      cases (r.regulator.step r.stage r.period).outcome with
      | none => exact Twins.finish (.intro m htwins hst)
      | some o =>
        have hticked := Twins.intro (r := r.ticked (r.regulator.step r.stage r.period).regulator
          (r.regulator.step r.stage r.period).stage o n) (m.record o) htwins
          (Status.twins_ofRegulator htwins)
        dsimp only
        split
        · exact hticked.complete
        · exact hticked

variable [Settable σ ι]

theorem Twins.react (h : Twins r r') (hc : r.Coherent) (e : Event ι) :
    Twins (r.react e) (r'.react e) := by
  cases e with
  | start noThread? =>
    cases hr : r.running with
    | false =>
      have hr' := h.running_eq.trans hr
      cases noThread? with
      | none =>
        rw [Runner.react, Runner.react, start_of_resting hr, start_of_resting hr']
        exact h.sameSetup.twins_begun h.stage_eq
      | some reason =>
        rw [Runner.react, Runner.react, start_without_thread hr, start_without_thread hr']
        exact h.unspawned
    | true =>
      rw [Runner.react, Runner.react, start_of_running hr,
        start_of_running (h.running_eq.trans hr)]
      exact h
  | stop => exact h.stop hc
  | resetTelemetry => exact h.resetTelemetry
  | tick => exact h.tick hc
  | set x =>
    cases h with
    | intro m hg hst => exact .intro m hg hst

theorem Twins.run (h : Twins r r') (hc : r.Coherent) (es : List (Event ι)) :
    Twins (r.run es) (r'.run es) := by
  induction es generalizing r r' with
  | nil => exact h
  | cons e es ih => exact ih (h.react hc e) ((happens hc e).coherent hc)

end

/-! ## The setup stays -/

section
variable {r r' r'' : Runner σ}

theorem SameSetup.refl (r : Runner σ) : SameSetup r r := ⟨rfl, rfl, rfl, rfl, rfl, rfl⟩

theorem SameSetup.symm (h : SameSetup r r') : SameSetup r' r where
  config := h.config.symm
  settings := h.settings.symm
  period := h.period.symm
  overrunLimit := h.overrunLimit.symm
  regulatorConfig := h.regulatorConfig.symm
  regulatorPeriod := h.regulatorPeriod.symm

theorem SameSetup.trans (h : SameSetup r r') (h' : SameSetup r' r'') : SameSetup r r'' where
  config := h.config.trans h'.config
  settings := h.settings.trans h'.settings
  period := h.period.trans h'.period
  overrunLimit := h.overrunLimit.trans h'.overrunLimit
  regulatorConfig := h.regulatorConfig.trans h'.regulatorConfig
  regulatorPeriod := h.regulatorPeriod.trans h'.regulatorPeriod

variable [PowerStage σ]

theorem sameSetup_halt (r : Runner σ) : SameSetup r.halt r := by
  unfold halt
  dsimp only
  split <;> exact ⟨rfl, rfl, rfl, rfl, rfl, rfl⟩

theorem sameSetup_finish (r : Runner σ) : SameSetup r.finish r := by
  have h := sameSetup_halt r
  exact ⟨h.config, h.settings, h.period, h.overrunLimit, h.regulatorConfig, h.regulatorPeriod⟩

theorem sameSetup_complete (r : Runner σ) : SameSetup r.complete r := by
  rcases complete_cases r with hc | hc
  · rw [hc]
    exact sameSetup_finish r
  · rw [hc]
    exact (sameSetup_finish r.halt).trans (sameSetup_halt r)

/-- The setup after a step on the stage. -/
theorem sameSetup_stepped {g : Regulator} {s : σ} {o : Option StepOutcome}
    (step : r.regulator.step r.stage r.period = ⟨g, s, o⟩) :
    SameSetup (r.crashed g s) r := by
  obtain ⟨hc, hp⟩ := Regulator.config_step r.regulator r.stage r.period
  rw [step] at hc hp
  exact ⟨rfl, rfl, rfl, rfl, hc, hp⟩

variable [Settable σ ι]

theorem Happens.sameSetup {e : Event ι} (w : r.Happens e r') : SameSetup r' r := by
  cases w with
  | refused | idled | begun | unspawned | dismissed | cleared | set =>
    exact ⟨rfl, rfl, rfl, rfl, rfl, rfl⟩
  | stopped =>
    have h := sameSetup_finish r
    exact ⟨h.config, h.settings, h.period, h.overrunLimit, h.regulatorConfig, h.regulatorPeriod⟩
  | ticked run step =>
    have h := sameSetup_stepped step
    exact ⟨rfl, rfl, rfl, rfl, h.regulatorConfig, h.regulatorPeriod⟩
  | @completed run n g s o step =>
    have h := sameSetup_stepped step
    exact (sameSetup_complete (r.ticked g s o n)).trans
      ⟨rfl, rfl, rfl, rfl, h.regulatorConfig, h.regulatorPeriod⟩
  | @crashed run g s step =>
    exact (sameSetup_finish (r.crashed g s)).trans (sameSetup_stepped step)

theorem sameSetup_run (hc : r.Coherent) (es : List (Event ι)) : SameSetup (r.run es) r := by
  induction es generalizing r with
  | nil => exact .refl r
  | cons e es ih =>
    have w := happens hc e
    exact (ih (w.coherent hc)).trans w.sameSetup

end

/-! ## The past makes no difference -/

section
variable {c : Config} {l : LoopSettings} {s : σ} {r : Runner σ}

/-- A runner can be made of any stage, and is as new. -/
theorem create_of_create [PowerStage σ] (hr : create c l s = .ok r) (s' : σ) :
    ∃ fresh, create c l s' = .ok fresh ∧ fresh.running = false ∧ fresh.stage = s' ∧
      fresh.regulator = r.regulator ∧ SameSetup fresh r := by
  obtain ⟨g, limit, hg, hlimit, hl, rfl⟩ := create_eq_ok hr
  refine ⟨{ config := c, settings := l, period := g.period, overrunLimit := limit, regulator := g
            stage := s' }, ?_, rfl, rfl, rfl, ⟨rfl, rfl, rfl, rfl, rfl, rfl⟩⟩
  unfold create
  rw [hl, hg]
  change (l.overrunLimit g.period).mapError RunnerError.loop >>= _ = _
  rw [hlimit]
  rfl

theorem regulator_of_create [PowerStage σ] (hr : create c l s = .ok r) :
    Regulator.create c = .ok r.regulator := by
  obtain ⟨g, limit, hg, -, -, rfl⟩ := create_eq_ok hr
  exact hg

end

/-- What the past of a runner at rest means for a run that begins now: its regulator goes on like a
new one, and the run goes on like the first run of a new runner on the same stage. -/
structure StartsAnew [PowerStage σ] [Settable σ ι] (c : Config) (l : LoopSettings)
    (g : Regulator) (r : Runner σ) : Prop where
  regulator : (r.react (.start : Event ι)).regulator.SameFuture g
  runner : ∃ fresh, create c l r.stage = .ok fresh ∧ fresh.regulator = g ∧
    ∀ es : List (Event ι), Twins (r.run (.start :: es)) (fresh.run (.start :: es))

section
variable [PowerStage σ] [Settable σ ι] {c : Config} {l : LoopSettings} {s : σ} {r : Runner σ}

theorem react_start (rest : r.running = false) : r.react (.start : Event ι) = r.begun := by
  rw [react, start_of_resting rest]

theorem startsAnew (hr : create c l s = .ok r) (es : List (Event ι))
    (rest : (r.run es).running = false) : StartsAnew (ι := ι) c l r.regulator (r.run es) := by
  have hsetup : SameSetup (r.run es) r := sameSetup_run (coherent_of_create hr) es
  have hpid := (Regulator.new_of_create (regulator_of_create hr)).2
  obtain ⟨fresh, hfresh, hrest, hstage, hreg, hsetup'⟩ := create_of_create hr (r.run es).stage
  refine ⟨?_, fresh, hfresh, hreg, fun fs => ?_⟩
  · rw [react_start rest]
    exact Regulator.Alike.sameFuture
      ⟨hsetup.regulatorConfig, hsetup.regulatorPeriod, hpid.symm⟩
  · have htwins := (hsetup.trans hsetup'.symm).twins_begun hstage
    change Twins (((r.run es).react .start).run fs) ((fresh.react .start).run fs)
    rw [react_start rest, react_start hrest]
    exact htwins.run ⟨rfl, fun _ => ⟨0, rfl⟩⟩ fs

/-- **The past makes no difference.** Two regulators with the same valid settings that have both
left the regulating zone, each after a history and in a way of its own, answer all further ticks
alike. And a run that begins now goes on as if there had been none before it. -/
theorem history_erased (hc : c.check = .ok ()) :
    ∃ g, Regulator.create c = .ok g ∧
      (∀ {σ σ' : Type} [PowerStage σ] [PowerStage σ'] (us : List (Regulator.Use σ))
        (u : Regulator.Use σ) (us' : List (Regulator.Use σ')) (u' : Regulator.Use σ'),
        u.Erases c → u'.Erases c →
          (g.after (us ++ [u])).SameFuture (g.after (us' ++ [u']))) ∧
      ∀ {σ ι : Type} [PowerStage σ] [Settable σ ι] (l : LoopSettings) (s : σ) (r : Runner σ)
        (es : List (Event ι)), create c l s = .ok r → (r.run es).running = false →
          StartsAnew (ι := ι) c l g (r.run es) := by
  have hv : c.Valid := (Config.check_eq_ok_iff c).1 hc
  obtain ⟨g, hg⟩ : ∃ g, Regulator.create c = .ok g := ⟨_, Regulator.create_eq hv⟩
  refine ⟨g, hg, ?_, ?_⟩
  · intro σ σ' _ _ us u us' u' hu hu'
    obtain ⟨rfl, hpid⟩ := Regulator.new_of_create hg
    have halike := Regulator.alike_after hpid us hu
    have halike' := Regulator.alike_after hpid us' hu'
    exact (halike.trans halike'.symm).sameFuture
  · intro σ ι _ _ l s r es hr rest
    obtain rfl : g = r.regulator := Except.ok.inj (hg.symm.trans (regulator_of_create hr))
    exact startsAnew hr es rest

/-- With the standard settings: a drop that recovers and a drop in which the sensor fails, and a run
after one that has regulated. -/
theorem history_erased_standard :
    ({} : Config).check = .ok () ∧
      ∃ g, Regulator.create {} = .ok g ∧
        (g.after [.operation (.tick 46.0 g.period),
            (.operation (.tick 48.0 g.period) : Regulator.Use ScriptedStage)]).SameFuture
          (g.after [.operation (.tick 45.0 g.period),
            .step ({ sensorFails := true } : ScriptedStage) g.period]) ∧
        ∃ r : Runner ScriptedStage, create {} {} { inputVoltage := 46.0 } = .ok r ∧
          (r.run [.start, .tick, .stop]).running = false ∧
          StartsAnew {} {} g (r.run [.start, .tick, .stop]) := by
  obtain ⟨g, hg, herased, hanew⟩ := history_erased (c := {}) rfl
  obtain ⟨r, hr⟩ : ∃ r : Runner ScriptedStage, create {} {} { inputVoltage := 46.0 } = .ok r :=
    ⟨_, rfl⟩
  have hidle : (Regulator.Use.operation (.tick 48.0 g.period) :
      Regulator.Use ScriptedStage).Erases {} := by
    change Zone.classify 48.0 {} ≠ .regulating
    decide +kernel
  have hfailed : (Regulator.Use.step ({ sensorFails := true } : ScriptedStage) g.period).Erases {} :=
    trivial
  have hrest : (r.run [.start, .tick, .stop]).running = false :=
    running_stop (coherent_run (coherent_of_create hr) [.start, .tick])
  exact ⟨rfl, g, hg, herased [_] _ [_] _ hidle hfailed, r, hr, hrest, hanew _ _ r _ hr hrest⟩

end
end Runner
end BusRegen
