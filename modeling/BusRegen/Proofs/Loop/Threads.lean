import BusRegen.Loop.Threads
import BusRegen.Proofs.Loop.History
/-!
# The worker and a stop

A run ends with the worker, with a stop, or with both at the same time. `Ending own stops` says how
far it has come: whether the worker has released the motor, whether the stop has, and what the flag,
the lock and the phases of the two threads have to do with that. It is what every step preserves,
with one more release at most (`Ending.next`).

There are thirteen ways for a step to go, listed in `Moves`, which also says whether it is a tick.
The turns of a worker and the stops of which a history is made are among the schedules: nothing
comes between their steps (`run_turn`, `run_stop_of_running`, `run_stop_of_resting`).
-/
namespace BusRegen

namespace Runner

variable {σ : Type} [PowerStage σ] (r : Runner σ)

@[simp, grind =] theorem halted_halt : r.halt.halted = true := by
  unfold halt
  dsimp only
  split <;> rfl

@[simp, grind =] theorem running_halt : r.halt.running = r.running := by
  unfold halt
  dsimp only
  split <;> rfl

@[simp, grind =] theorem worker_halt : r.halt.worker = r.worker := by
  unfold halt
  dsimp only
  split <;> rfl

@[simp] theorem stage_halt : r.halt.stage = (PowerStage.release r.stage).2 := by
  unfold halt
  dsimp only
  split <;> rfl

/-- It makes no difference to the end of a run when the flag is taken down. -/
theorem halt_lowered : ({ r with running := false } : Runner σ).halt = r.finish := by
  unfold finish halt
  dsimp only
  split <;> rfl

end Runner

namespace Threads

variable {σ : Type}

/-! ## The end of the run -/

/-- How far the run is on its way to the end: whether the worker has released the motor after its
last tick, and whether the stop has. -/
@[grind cases]
structure Ending (own stops : Bool) (t : Threads σ) : Prop where
  halted : t.runner.halted = (own || stops)
  running : t.runner.running = true ↔ t.stop = .called ∧ t.loop ≠ .gone
  own_left : own = true → t.loop.hasLeft = true
  stops_pastLock : stops = true → t.stop.isPastLock = true
  /-- The worker leaves its loop after a release of its own or because of the stop. -/
  left : t.loop.hasLeft = true → own = true ∨ t.stop ≠ .called
  /-- The stop releases the motor unless the worker has said that it is not running. -/
  spared : t.stop = .swapped false → own = true ∧ t.loop = .gone
  pastLock : t.stop.isPastLock = true → stops = true ∨ own = true ∧ t.loop = .gone
  joined : t.stop = .returned → t.loop = .gone
  worker : t.stop ≠ .returned → t.runner.worker.isSome = true
  sound : t.stop ≠ .crashed

section
variable {t t' : Threads σ} {own stops : Bool}

/-- A step inside the loop. -/
theorem Ending.work (h : t.Ending own stops) (live : t.loop.hasLeft = false)
    (live' : t'.loop.hasLeft = false) (hhalted : t'.runner.halted = t.runner.halted)
    (hrunning : t'.runner.running = t.runner.running)
    (hworker : t'.runner.worker.isSome = t.runner.worker.isSome) (hstop : t'.stop = t.stop) :
    t'.Ending own stops := by
  constructor <;> grind

/-- The worker leaves its loop because of the stop. -/
theorem Ending.leave (h : t.Ending own stops) (live : t.loop.hasLeft = false)
    (why : t.runner.running = false ∨ t.runner.halted = true ∨ t.stop.hasSignalled = true) :
    Ending own stops { t with loop := .leaving } := by
  have hcalled : t.stop ≠ .called := by grind
  constructor <;> grind

theorem Ending.exit (h : t.Ending own stops) (at_ : t.loop = .leaving) :
    Ending own stops { t with runner := { t.runner with running := false }, loop := .gone } := by
  constructor <;> grind

theorem Ending.swap (h : t.Ending own stops) (at_ : t.stop = .called) :
    Ending own stops
      { t with runner := { t.runner with running := false }, stop := .swapped t.runner.running } := by
  constructor <;> grind

theorem Ending.signal (h : t.Ending own stops) {b : Bool} (at_ : t.stop = .swapped b) :
    Ending own stops { t with stop := if b then .halting else .joining } := by
  constructor <;> grind

theorem Ending.join (h : t.Ending own stops) (at_ : t.stop = .joining) (gone : t.loop = .gone) :
    Ending own stops { t with runner := t.runner.dismissed, stop := .returned } := by
  constructor <;> grind [Runner.dismissed]

variable [PowerStage σ]

/-- The worker releases the motor, and is then out of its loop. -/
theorem Ending.release (h : t.Ending own stops) (live : t.loop.hasLeft = false) :
    own = false ∧ Ending true stops { t with runner := t.runner.halt, loop := .leaving } := by
  have hown : own = false := by grind
  refine ⟨hown, ?_⟩
  constructor <;> grind

/-- The stop releases the motor, and waits for the worker. -/
theorem Ending.halt (h : t.Ending own stops) (at_ : t.stop = .halting) :
    stops = false ∧ Ending own true { t with runner := t.runner.halt, stop := .joining } := by
  have hstops : stops = false := by grind
  refine ⟨hstops, ?_⟩
  constructor <;> grind

end

/-! ## The ways for a step to go -/

/-- Whether a step is a tick: the worker has the lock, and the motor was not released for good. -/
def isTick (t : Threads σ) : ThreadStep → Bool
  | .loop =>
    match t.loop with
    | .entering => !t.runner.halted
    | _ => false
  | _ => false

variable [PowerStage σ]

/-- Where a step leads, and whether it is a tick. -/
inductive Moves (t : Threads σ) : Bool → Threads σ → Prop where
  | idle : Moves t false t
  | checked (at_ : t.loop = .checking) : Moves t false { t with loop := .entering }
  | ticked (at_ : t.loop = .entering) (go : t.runner.halted = false) {g s o}
      (step : t.runner.regulator.step t.runner.stage t.runner.period = ⟨g, s, some o⟩) :
      Moves t true { t with runner := (t.runner.crashed g s).publish, loop := .counting o }
  | crashed (at_ : t.loop = .entering) (go : t.runner.halted = false) {g s}
      (step : t.runner.regulator.step t.runner.stage t.runner.period = ⟨g, s, none⟩) :
      Moves t true { t with runner := t.runner.crashed g s, loop := .unwinding }
  | counted {o} (at_ : t.loop = .counting o) {p} (next : p = .halting ∨ p = .waiting) :
      Moves t false
        { t with
          runner := { t.runner with
            metrics := t.runner.metrics.record o, worker := t.runner.worker.map (· + 1) }
          loop := p }
  | waited (at_ : t.loop = .waiting) : Moves t false { t with loop := .checking }
  | left (live : t.loop.hasLeft = false)
      (why : t.runner.running = false ∨ t.runner.halted = true ∨ t.stop.hasSignalled = true) :
      Moves t false { t with loop := .leaving }
  | released (at_ : t.loop = .halting ∨ t.loop = .unwinding) :
      Moves t false { t with runner := t.runner.halt, loop := .leaving }
  | exited (at_ : t.loop = .leaving) :
      Moves t false { t with runner := { t.runner with running := false }, loop := .gone }
  | swapped (at_ : t.stop = .called) :
      Moves t false
        { t with
          runner := { t.runner with running := false }, stop := .swapped t.runner.running }
  | signalled {b} (at_ : t.stop = .swapped b) :
      Moves t false { t with stop := if b then .halting else .joining }
  | stopped (at_ : t.stop = .halting) :
      Moves t false { t with runner := t.runner.halt, stop := .joining }
  | joined (at_ : t.stop = .joining) (gone : t.loop = .gone) :
      Moves t false { t with runner := t.runner.dismissed, stop := .returned }

variable {t t' : Threads σ} {b : Bool}

theorem moves_loop (hrel : (PowerStage.release t.runner.stage).1 ≠ .crash) :
    t.Moves (t.isTick .loop) t.stepLoop := by
  cases h : t.loop with
  | checking =>
    simp only [isTick, stepLoop, h]
    cases hr : t.runner.running with
    | true => exact .checked h
    | false => exact .left (by rw [h]; rfl) (.inl hr)
  | entering =>
    simp only [isTick, stepLoop, h]
    split
    · rename_i hh
      rw [hh]
      exact .left (by rw [h]; rfl) (.inr (.inl hh))
    · rename_i hh
      have go : t.runner.halted = false := by simpa using hh
      have htick : (!t.runner.halted) = true := by rw [go]; rfl
      rw [htick]
      cases hs : t.runner.regulator.step t.runner.stage t.runner.period with
      | mk g s o =>
        cases o with
        | none => exact .crashed h go hs
        | some o => exact .ticked h go hs
  | counting o =>
    simp only [isTick, stepLoop, h]
    refine .counted h ?_
    split
    · exact .inl rfl
    · exact .inr rfl
  | halting =>
    simp only [isTick, stepLoop, h]
    exact .released (.inl h)
  | waiting =>
    simp only [isTick, stepLoop, h]
    exact .waited h
  | unwinding =>
    simp only [isTick, stepLoop, h]
    exact .released (.inr h)
  | leaving =>
    simp only [isTick, stepLoop, h]
    exact .exited h
  | gone =>
    simp only [isTick, stepLoop, h]
    exact .idle

theorem moves_wake : t.Moves false t.stepWake := by
  unfold stepWake
  split
  · rename_i h
    split
    · rename_i hs
      exact .left (by rw [h]; rfl) (.inr (.inr hs))
    · exact .idle
  · exact .idle

theorem moves_stop (hrel : (PowerStage.release t.runner.stage).1 ≠ .crash)
    (hw : t.stop = .called → t.runner.worker.isSome = true) : t.Moves false t.stepStop := by
  unfold stepStop
  cases h : t.stop with
  | called =>
    dsimp only
    split
    · rename_i hn
      have := hw h
      rw [hn] at this
      cases this
    · exact .swapped h
  | swapped b => exact .signalled h
  | halting =>
    dsimp only
    split
    · contradiction
    · exact .stopped h
  | joining =>
    dsimp only
    split
    · rename_i hg
      exact .joined h hg
    · exact .idle
  | returned | crashed => exact .idle

theorem moves (hrel : (PowerStage.release t.runner.stage).1 ≠ .crash)
    (hw : t.stop = .called → t.runner.worker.isSome = true) (p : ThreadStep) :
    t.Moves (t.isTick p) (t.step p) := by
  cases p with
  | loop => exact moves_loop hrel
  | wake => exact moves_wake
  | stop => exact moves_stop hrel hw

theorem Moves.kept {P : σ → Prop} (hP : Kept P) (hs : P t.runner.stage) (w : t.Moves b t') :
    P t'.runner.stage := by
  have hstep := Regulator.kept_step hP hs t.runner.regulator t.runner.period
  cases w with
  | ticked at_ go step | crashed at_ go step =>
    rw [step] at hstep
    exact hstep
  | released | stopped =>
    rw [Runner.stage_halt]
    exact hP.release hs
  | idle | checked | counted | waited | left | exited | swapped | signalled | joined => exact hs

/-! ## A step on the way to the end -/

/-- What a step does to the stage, and to the releases: it is a tick before them all, it makes no
call, or it is one of them. -/
inductive Ending.Step (own stops : Bool) (t t' : Threads σ) : Bool → Prop where
  | tick (own_eq : own = false) (stops_eq : stops = false) (next : t'.Ending false false) :
      Step own stops t t' true
  | quiet (next : t'.Ending own stops) (stage : t'.runner.stage = t.runner.stage) :
      Step own stops t t' false
  | release {own' stops'} (next : t'.Ending own' stops')
      (count : own'.toNat + stops'.toNat = own.toNat + stops.toNat + 1)
      (stage : t'.runner.stage = (PowerStage.release t.runner.stage).2) :
      Step own stops t t' false

variable {own stops : Bool}

theorem Ending.next (h : t.Ending own stops) (w : t.Moves b t') :
    Ending.Step own stops t t' b := by
  cases w with
  | idle => exact .quiet h rfl
  | checked at_ | waited at_ =>
    have live : t.loop.hasLeft = false := by rw [at_]; rfl
    exact .quiet (h.work live rfl rfl rfl rfl rfl) rfl
  | ticked at_ go | crashed at_ go =>
    have live : t.loop.hasLeft = false := by rw [at_]; rfl
    have hnone : own = false ∧ stops = false := by
      rw [← Bool.or_eq_false_iff, ← h.halted]
      exact go
    obtain ⟨rfl, rfl⟩ := hnone
    exact .tick rfl rfl (h.work live rfl rfl rfl rfl rfl)
  | @counted o at_ p next =>
    have live : t.loop.hasLeft = false := by rw [at_]; rfl
    have live' : p.hasLeft = false := by obtain rfl | rfl := next <;> rfl
    exact .quiet (h.work live live' rfl rfl Option.isSome_map rfl) rfl
  | left live why => exact .quiet (h.leave live why) rfl
  | released at_ =>
    have live : t.loop.hasLeft = false := by obtain at_ | at_ := at_ <;> rw [at_] <;> rfl
    obtain ⟨rfl, hnext⟩ := h.release live
    exact .release hnext (by rw [Bool.toNat_true, Bool.toNat_false, Nat.zero_add, Nat.add_comm])
      (Runner.stage_halt _)
  | exited at_ => exact .quiet (h.exit at_) rfl
  | swapped at_ => exact .quiet (h.swap at_) rfl
  | signalled at_ => exact .quiet (h.signal at_) rfl
  | stopped at_ =>
    obtain ⟨rfl, hnext⟩ := h.halt at_
    exact .release hnext rfl (Runner.stage_halt _)
  | joined at_ gone => exact .quiet (h.join at_ gone) rfl

/-! ## Undisturbed -/

section
variable {P : σ → Prop}

/-- Left to itself the worker gets through a turn in six steps at most, to the next look at the flag
or out of its loop. The release that closes the run is a part of the turn, and so is the second one,
which is made if the first crashes. -/
theorem run_turn {r : Runner σ} (hc : r.Coherent) (stop : StopPhase) :
    ∃ n ≤ 6, run ⟨r, .checking, stop⟩ (List.replicate n .loop) =
      ⟨r.tick, if r.tick.running then .checking else .gone, stop⟩ := by
  have hout (p : Runner σ) : stepLoop ⟨p.halt, .leaving, stop⟩ = ⟨p.finish, .gone, stop⟩ := rfl
  cases hr : r.running with
  | false =>
    have h1 : stepLoop ⟨r, .checking, stop⟩ = ⟨r, .leaving, stop⟩ := by
      simp [stepLoop, hr]
    refine ⟨2, by decide, ?_⟩
    change stepLoop (stepLoop _) = _
    rw [Runner.tick_of_resting hr, h1, if_neg (Runner.not_running hr)]
    change (⟨{ r with running := false }, .gone, stop⟩ : Threads σ) = _
    rw [← hr]
  | true =>
    obtain ⟨n, hw⟩ := hc.worker hr
    have hh : r.halted = false := by simp [hc.halted_eq, hr]
    have hgo : ¬ (r.running = false ∨ r.halted = true) := by simp [hr, hh]
    have h1 : stepLoop ⟨r, .checking, stop⟩ = ⟨r, .entering, stop⟩ := by
      simp [stepLoop, hr]
    rw [Runner.tick_of_running hgo hw]
    cases hs : r.regulator.step r.stage r.period with
    | mk g s o =>
      cases o with
      | none =>
        have h2 : stepLoop ⟨r, .entering, stop⟩ = ⟨r.crashed g s, .unwinding, stop⟩ := by
          simp [stepLoop, hs, hh, Runner.crashed]
        refine ⟨4, by decide, ?_⟩
        change stepLoop (stepLoop (stepLoop (stepLoop _))) = _
        rw [h1, h2]
        exact hout _
      | some o =>
        have h2 : stepLoop ⟨r, .entering, stop⟩ =
            ⟨(r.crashed g s).publish, .counting o, stop⟩ := by
          simp [stepLoop, hs, hh, Runner.crashed]
        have h3 : stepLoop ⟨(r.crashed g s).publish, .counting o, stop⟩ =
            ⟨r.ticked g s o n,
              if Runner.isUsedUp r.settings (n + 1) then .halting else .waiting, stop⟩ := by
          simp [stepLoop, Runner.crashed, Runner.publish, Runner.ticked, hw]
        dsimp only
        split
        · next hup =>
          rw [if_pos hup] at h3
          cases hrel : (PowerStage.release (r.ticked g s o n).stage).1 with
          | crash =>
            have h4 : stepLoop ⟨r.ticked g s o n, .halting, stop⟩ =
                ⟨(r.ticked g s o n).halt, .unwinding, stop⟩ := by
              simp only [stepLoop, hrel]
            refine ⟨6, by decide, ?_⟩
            change stepLoop (stepLoop (stepLoop (stepLoop (stepLoop (stepLoop _))))) = _
            rw [h1, h2, h3, h4]
            simp only [Runner.complete, hrel]
            exact hout _
          | done | fault =>
            have h4 : stepLoop ⟨r.ticked g s o n, .halting, stop⟩ =
                ⟨(r.ticked g s o n).halt, .leaving, stop⟩ := by
              simp only [stepLoop, hrel]
            refine ⟨5, by decide, ?_⟩
            change stepLoop (stepLoop (stepLoop (stepLoop (stepLoop _)))) = _
            rw [h1, h2, h3, h4]
            simp only [Runner.complete, hrel]
            exact hout _
        · next hup =>
          have hgoes : (r.ticked g s o n).running = true := hr
          refine ⟨4, by decide, ?_⟩
          change stepLoop (stepLoop (stepLoop (stepLoop _))) = _
          rw [h1, h2, h3, if_neg hup, if_pos hgoes]
          rfl

/-- A stop between two turns, in which the worker takes its way out, is a stop that nothing
disturbs. -/
theorem run_stop_of_running (hP : Releasable P) {r : Runner σ} (hs : P r.stage) (hc : r.Coherent)
    (hr : r.running = true) :
    run ⟨r, .waiting, .called⟩ [.stop, .stop, .stop, .wake, .loop, .stop] =
      ⟨r.stop, .gone, .returned⟩ := by
  obtain ⟨n, hw⟩ := hc.worker hr
  have hrel := hP.release_ne_crash hs
  have h1 : stepStop ⟨r, .waiting, .called⟩ =
      ⟨{ r with running := false }, .waiting, .swapped true⟩ := by
    simp only [stepStop, hw, hr]
  have h2 : stepStop ⟨{ r with running := false }, .waiting, .swapped true⟩ =
      ⟨{ r with running := false }, .waiting, .halting⟩ := rfl
  have h3 : stepStop ⟨{ r with running := false }, .waiting, .halting⟩ =
      ⟨r.finish, .waiting, .joining⟩ := by
    simp only [stepStop, Runner.halt_lowered]
  rw [Runner.stop_of_running hr hw]
  change stepStop (stepLoop (stepWake (stepStop (stepStop (stepStop _))))) = _
  rw [h1, h2, h3]
  rfl

/-- So is a stop after the run has ended by itself. -/
theorem run_stop_of_resting {r : Runner σ} (hr : r.running = false) :
    run ⟨r, .gone, .called⟩ [.stop, .stop, .stop] = ⟨r.stop, .gone, .returned⟩ := by
  rw [Runner.stop_of_resting hr]
  change stepStop (stepStop (stepStop _)) = _
  cases hw : r.worker with
  | none =>
    have h1 : stepStop ⟨r, .gone, .called⟩ = ⟨r, .gone, .returned⟩ := by
      simp only [stepStop, hw]
    rw [h1]
    change (⟨r, .gone, .returned⟩ : Threads σ) = ⟨{ r with worker := none }, .gone, .returned⟩
    rw [← hw]
  | some n =>
    have h1 : stepStop ⟨r, .gone, .called⟩ =
        ⟨{ r with running := false }, .gone, .swapped false⟩ := by
      simp only [stepStop, hw, hr]
    rw [h1]
    change (⟨{ r with running := false, worker := none }, .gone, .returned⟩ : Threads σ) =
      ⟨{ r with worker := none }, .gone, .returned⟩
    rw [← hr]

end

end Threads
end BusRegen
