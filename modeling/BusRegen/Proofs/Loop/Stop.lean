import BusRegen.Proofs.Loop.Calls
import BusRegen.Proofs.Loop.Threads
/-!
# A stop while the worker goes on

Whatever the order of their steps, the worker and the stop agree on the end of the run
(`stop_safe`). The lock decides which ticks there are: who releases the motor first also says that
it was released for good, and the worker looks at that before it ticks. So all that can follow is
the other release, and there is one only if the worker ends by itself while it is being stopped.

The calls are read from the record of a recorded stage, which leaves everything else as it is
(`plain_run`). `Closing` divides them in those up to the last tick and the releases after it.
-/
namespace BusRegen

/-- The steps that a stop has before it waits for the worker. -/
def StopPhase.ahead : StopPhase → Nat
  | called => 3
  | swapped _ => 2
  | halting => 1
  | _ => 0

/-- The steps that a worker has, at most, before it is gone, if it is not to go on. -/
def LoopPhase.ahead : LoopPhase → Nat
  | counting _ => 4
  | waiting | halting => 3
  | checking | entering | unwinding => 2
  | leaving => 1
  | gone => 0

namespace Threads

variable {σ : Type}

/-! ## The calls of the run -/

/-- The calls on the record. -/
def calls (t : Threads (Recorded σ)) : List Command := t.runner.stage.calls

/-- The calls up to the last tick are those of `base`, and `n` releases have followed. -/
structure Closing (P : σ → Prop) (base : List Command) (n : Nat) (t : Threads (Recorded σ)) :
    Prop where
  stage : P t.runner.stage.stage
  ending : ∃ own stops, t.Ending own stops ∧ own.toNat + stops.toNat = n
  calls : t.calls = base ++ List.replicate n .release

section
variable {P : σ → Prop} {t : Threads (Recorded σ)} {base : List Command} {n : Nat}

theorem Closing.le_two (h : t.Closing P base n) : n ≤ 2 := by
  obtain ⟨own, stops, -, rfl⟩ := h.ending
  exact Nat.add_le_add (Bool.toNat_le own) (Bool.toNat_le stops)

theorem Closing.pos_of_halted (h : t.Closing P base n) (hh : t.runner.halted = true) : 0 < n := by
  obtain ⟨own, stops, hend, rfl⟩ := h.ending
  rw [hend.halted, Bool.or_eq_true] at hh
  obtain rfl | rfl := hh
  · exact Nat.lt_add_right _ Nat.zero_lt_one
  · exact Nat.lt_add_left _ Nat.zero_lt_one

end

/-- No release has followed the start of a run. -/
theorem closing_started {P : σ → Prop} {r started : Runner σ} (hs : P r.stage)
    (hstart : r.start = (.ok (), started)) :
    let t : Threads (Recorded σ) := { runner := started.recorded }
    t.Closing P t.calls 0 := by
  cases hr : r.running with
  | true =>
    rw [Runner.start_of_running hr] at hstart
    cases hstart
  | false =>
    rw [Runner.start_of_resting hr] at hstart
    cases hstart
    refine ⟨hs, ⟨false, false, ?_, rfl⟩, rfl⟩
    constructor <;> simp [Runner.recorded, Runner.begun, LoopPhase.hasLeft, StopPhase.isPastLock]

variable [PowerStage σ]

section
variable {P : σ → Prop} {t : Threads (Recorded σ)} {base : List Command} {n : Nat}

theorem Closing.next (hP : Releasable P) (h : t.Closing P base n) (p : ThreadStep) :
    if t.isTick p then n = 0 ∧ (t.step p).Closing P (t.step p).calls 0
    else ∃ k, (t.step p).Closing P base (n + k) := by
  obtain ⟨hstage, ⟨own, stops, hend, hn⟩, hcalls⟩ := h
  have hworker : t.stop = .called → t.runner.worker.isSome = true := fun hcalled =>
    hend.worker (by rw [hcalled]; exact StopPhase.noConfusion)
  have w : t.Moves (t.isTick p) (t.step p) :=
    moves ((Recorded.releasable hP).release_ne_crash hstage) hworker p
  have hkept : P (t.step p).runner.stage.stage := w.kept (Recorded.kept hP.toKept) hstage
  have hnext := hend.next w
  generalize t.step p = t' at hkept hnext
  generalize t.isTick p = b at hnext
  cases hnext with
  | tick own_eq stops_eq next =>
    subst own_eq stops_eq
    exact ⟨hn.symm, hkept, ⟨_, _, next, rfl⟩, (List.append_nil _).symm⟩
  | quiet next stage =>
    refine ⟨0, hkept, ⟨own, stops, next, hn⟩, ?_⟩
    rw [Threads.calls, stage]
    exact hcalls
  | @release own' stops' next count stage =>
    refine ⟨1, hkept, ⟨own', stops', next, by rw [count, hn]⟩, ?_⟩
    rw [Threads.calls, stage, Recorded.release_eq, List.replicate_succ', ← List.append_assoc,
      ← hcalls]
    rfl

/-- Once the motor was released, releases are the only calls. -/
theorem Closing.run_of_pos (hP : Releasable P) (h : t.Closing P base n) (hn : 0 < n)
    (rest : List ThreadStep) :
    ∃ k, (t.run rest).Closing P base (n + k) := by
  induction rest generalizing t n with
  | nil => exact ⟨0, h⟩
  | cons p rest ih =>
    have hnext := h.next hP p
    split at hnext
    · exact absurd hnext.1 (Nat.ne_of_gt hn)
    · obtain ⟨k, hk⟩ := hnext
      obtain ⟨k', hk'⟩ := ih hk (Nat.lt_add_right k hn)
      exact ⟨k + k', by rwa [← Nat.add_assoc]⟩

/-! ## The last tick -/

/-- Where a schedule led with its last tick, or where it began if it had none. -/
def afterLastTick (t : Threads σ) (schedule : List ThreadStep) : Threads σ :=
  (schedule.foldl (fun ts p => (ts.1.step p, if ts.1.isTick p then ts.1.step p else ts.2)) (t, t)).2

theorem foldl_afterLastTick (t last : Threads σ) (schedule : List ThreadStep) :
    (schedule.foldl (fun ts p => (ts.1.step p, if ts.1.isTick p then ts.1.step p else ts.2))
      (t, last)).1 = t.run schedule := by
  induction schedule generalizing t last with
  | nil => rfl
  | cons p schedule ih => exact ih _ _

theorem afterLastTick_concat (t : Threads σ) (schedule : List ThreadStep) (p : ThreadStep) :
    t.afterLastTick (schedule ++ [p]) =
      if (t.run schedule).isTick p then t.run (schedule ++ [p]) else t.afterLastTick schedule := by
  have hrun : t.run (schedule ++ [p]) = (t.run schedule).step p := List.foldl_append
  rw [afterLastTick, List.foldl_append, hrun, ← foldl_afterLastTick t t schedule]
  rfl

theorem Closing.run (hP : Releasable P) (h : t.Closing P t.calls 0)
    (schedule : List ThreadStep) :
    ∃ n, (t.run schedule).Closing P (t.afterLastTick schedule).calls n := by
  induction schedule using List.reverseRecOn with
  | nil => exact ⟨0, h⟩
  | append_singleton schedule p ih =>
    obtain ⟨n, hn⟩ := ih
    have hrun : t.run (schedule ++ [p]) = (t.run schedule).step p := List.foldl_append
    have hnext := hn.next hP p
    rw [afterLastTick_concat, hrun]
    split at hnext
    · rename_i htick
      rw [if_pos htick]
      exact ⟨0, hnext.2⟩
    · rename_i htick
      rw [if_neg htick]
      obtain ⟨k, hk⟩ := hnext
      exact ⟨n + k, hk⟩

end

/-! ## The stop can always return -/

theorem run_append (t : Threads σ) (schedule rest : List ThreadStep) :
    t.run (schedule ++ rest) = (t.run schedule).run rest := List.foldl_append

theorem ahead_stepStop (t : Threads σ) : t.stepStop.stop.ahead ≤ t.stop.ahead - 1 := by
  unfold stepStop
  cases h : t.stop with
  | called | halting | joining =>
    dsimp only
    split <;> simp [StopPhase.ahead, h]
  | swapped b => cases b <;> simp [StopPhase.ahead]
  | returned | crashed => simp [StopPhase.ahead, h]

/-- A worker that is not to go on has one step less after each. -/
theorem ahead_stepLoop {t : Threads σ} (hr : t.runner.running = false)
    (hh : t.runner.halted = true) :
    t.stepLoop.loop.ahead ≤ t.loop.ahead - 1 ∧ t.stepLoop.stop = t.stop ∧
      t.stepLoop.runner.running = false ∧ t.stepLoop.runner.halted = true := by
  unfold stepLoop
  cases h : t.loop with
  | counting o =>
    dsimp only
    split <;> simp [hr, hh, LoopPhase.ahead]
  | halting =>
    dsimp only
    split <;> simp [hr, LoopPhase.ahead]
  | checking | entering | waiting | unwinding | leaving | gone => simp [hr, hh, h, LoopPhase.ahead]

theorem ahead_stop (t : Threads σ) : (t.run [.stop, .stop, .stop]).stop.ahead = 0 := by
  have h1 := ahead_stepStop t
  have h2 := ahead_stepStop t.stepStop
  have h3 := ahead_stepStop t.stepStop.stepStop
  have h0 : t.stop.ahead ≤ 3 := by cases t.stop <;> simp [StopPhase.ahead]
  change t.stepStop.stepStop.stepStop.stop.ahead = 0
  omega

theorem ahead_loop {t : Threads σ} (hr : t.runner.running = false) (hh : t.runner.halted = true)
    (n : Nat) :
    (t.run (List.replicate n .loop)).loop.ahead ≤ t.loop.ahead - n ∧
      (t.run (List.replicate n .loop)).stop = t.stop := by
  induction n generalizing t with
  | zero => exact ⟨Nat.le_refl _, rfl⟩
  | succ n ih =>
    obtain ⟨hahead, hstop, hr', hh'⟩ := ahead_stepLoop hr hh
    obtain ⟨hahead', hstop'⟩ := ih hr' hh'
    refine ⟨?_, hstop'.trans hstop⟩
    change (t.stepLoop.run (List.replicate n .loop)).loop.ahead ≤ _
    omega

theorem gone_of_ahead {p : LoopPhase} (h : p.ahead = 0) : p = .gone := by
  cases p <;> simp [LoopPhase.ahead] at h ⊢

/-- After the return of the stop nothing happens. -/
theorem run_of_returned {t : Threads σ} (hstop : t.stop = .returned) (hloop : t.loop = .gone)
    (rest : List ThreadStep) : t.run rest = t := by
  induction rest with
  | nil => rfl
  | cons p rest ih =>
    have hstep : t.step p = t := by
      cases p <;> simp only [step, stepLoop, stepWake, stepStop, hstop, hloop]
    rw [run, List.foldl_cons, hstep]
    exact ih

theorem returned_of_joining {t : Threads σ} (hstop : t.stop.isPastLock = true)
    (hloop : t.loop = .gone) : t.stepStop.stop = .returned := by
  unfold stepStop
  cases h : t.stop with
  | joining => simp only [hloop]
  | returned => simp only [h]
  | called | swapped | halting | crashed => rw [h] at hstop; cases hstop

section
variable {P : σ → Prop} {t : Threads (Recorded σ)}

theorem returns (hP : Releasable P) (h : t.Closing P t.calls 0) (schedule : List ThreadStep) :
    ∃ rest, ((t.run schedule).run rest).stop = .returned := by
  -- The stop goes as far as it can, then the worker, and then the stop does not have to wait.
  obtain ⟨n, hn⟩ := h.run hP (schedule ++ [.stop, .stop, .stop])
  obtain ⟨own, stops, hend, -⟩ := hn.ending
  rw [run_append] at hend
  have hahead := ahead_stop (t.run schedule)
  generalize hjoin : (t.run schedule).run [.stop, .stop, .stop] = t' at hend hahead
  have hpast : t'.stop.isPastLock = true := by
    have hsound := hend.sound
    cases hs : t'.stop with
    | joining | returned => rfl
    | called | swapped | halting => rw [hs] at hahead; simp [StopPhase.ahead] at hahead
    | crashed => contradiction
  have hr : t'.runner.running = false := by
    have := hend.running
    grind
  have hh : t'.runner.halted = true := by
    have := hend.pastLock hpast
    rw [hend.halted]
    grind
  obtain ⟨hgone, hstop⟩ := ahead_loop hr hh 4
  have h4 : t'.loop.ahead ≤ 4 := by cases t'.loop <;> simp [LoopPhase.ahead]
  refine ⟨[.stop, .stop, .stop] ++ (List.replicate 4 .loop ++ [.stop]), ?_⟩
  rw [run_append, hjoin, run_append]
  exact returned_of_joining (hstop.symm ▸ hpast) (gone_of_ahead (by omega))

end

/-! ## The record changes nothing -/

/-- The threads without the record. -/
def plain (t : Threads (Recorded σ)) : Threads σ :=
  { runner := t.runner.plain, loop := t.loop, stop := t.stop }

section
variable (t : Threads (Recorded σ))

theorem plain_stepLoop : t.plain.stepLoop = t.stepLoop.plain := by
  unfold stepLoop
  cases h : t.loop with
  | checking =>
    simp only [plain, h]
    rfl
  | entering =>
    have hstep : t.plain.runner.regulator.step t.plain.runner.stage t.plain.runner.period = _ :=
      Regulator.plain_step t.runner.regulator t.runner.stage t.runner.period
    have hloop : t.plain.loop = .entering := h
    have hhalted : t.plain.runner.halted = t.runner.halted := rfl
    simp only [hloop, hhalted, hstep]
    split
    · rfl
    · cases t.runner.regulator.step t.runner.stage t.runner.period with
      | mk g s o => cases o <;> rfl
  | counting o =>
    simp only [plain, h]
    rfl
  | halting =>
    simp only [plain, h, Runner.plain_halt]
    simp only [Runner.plain, Recorded.release_eq, Recorded.answer]
    split <;> rfl
  | unwinding =>
    simp only [plain, h, Runner.plain_halt]
  | waiting | leaving | gone => simp only [plain, h, Runner.plain]

theorem plain_stepStop : t.plain.stepStop = t.stepStop.plain := by
  unfold stepStop
  cases h : t.stop with
  | called =>
    simp only [plain, h]
    cases hw : t.runner.worker <;> simp only [Runner.plain, hw]
  | swapped b => simp only [plain, h]
  | halting =>
    simp only [plain, h, Runner.plain_halt]
    simp only [Runner.plain, Recorded.release_eq, Recorded.answer]
    split <;> rfl
  | joining =>
    simp only [plain, h]
    split
    · rfl
    · simp only [h]
  | returned | crashed => simp only [plain, h]

theorem plain_step (p : ThreadStep) : t.plain.step p = (t.step p).plain := by
  cases p with
  | loop => exact plain_stepLoop t
  | stop => exact plain_stepStop t
  | wake =>
    cases h : t.loop with
    | waiting =>
      simp only [step, stepWake, plain, h]
      split
      · rfl
      · simp only [h]
    | checking | entering | counting | halting | unwinding | leaving | gone =>
      simp only [step, stepWake, plain, h]

theorem plain_run (schedule : List ThreadStep) : t.plain.run schedule = (t.run schedule).plain := by
  induction schedule generalizing t with
  | nil => rfl
  | cons p schedule ih =>
    rw [run, List.foldl_cons, plain_step]
    exact ih (t.step p)

end

/-! ## A stop is safe -/

section
variable {P : σ → Prop} {r started : Runner σ}

/-- **A stop is safe.** A run was started and is being stopped, with the steps of the two threads in
any order. Once the stop has left the lock, or has found that it does not need it, the only call
that can follow is one release. When it has returned nothing happens any more, the runner is at
rest, the last call was a release, and there were one or two of them after the last tick. And from
wherever a schedule has led, the stop can return. -/
theorem stop_safe (hP : Releasable P) (hs : P r.stage) (hstart : r.start = (.ok (), started))
    (schedule : List ThreadStep) :
    let first : Threads (Recorded σ) := { runner := started.recorded }
    let t := first.run schedule
    t.plain = run { runner := started } schedule ∧
      (t.stop.isPastLock = true → ∀ rest, ∃ k, k ≤ 1 ∧
        (t.run rest).calls = t.calls ++ List.replicate k .release) ∧
      (t.stop = .returned → (∀ rest, t.run rest = t) ∧ t.runner.running = false ∧
        t.runner.halted = true ∧ t.calls.getLast? = some .release ∧
        ∃ k, (k = 1 ∨ k = 2) ∧
          t.calls = (first.afterLastTick schedule).calls ++ List.replicate k .release) ∧
      ∃ rest, (t.run rest).stop = .returned := by
  intro first t
  have hfirst : first.Closing P first.calls 0 := closing_started hs hstart
  obtain ⟨n, hn⟩ := hfirst.run hP schedule
  obtain ⟨own, stops, hend, hcount⟩ := hn.ending
  have hpos (hpast : t.stop.isPastLock = true) : 0 < n := by
    refine hn.pos_of_halted ?_
    have := hend.pastLock hpast
    rw [hend.halted]
    grind
  refine ⟨?_, ?_, ?_, returns hP hfirst schedule⟩
  · exact (plain_run first schedule).symm
  · intro hpast rest
    obtain ⟨k, hk⟩ := hn.run_of_pos hP (hpos hpast) rest
    have htwo := hk.le_two
    have hone := hpos hpast
    refine ⟨k, by omega, ?_⟩
    rw [hk.calls, hn.calls, List.replicate_add, List.append_assoc]
  · intro hret
    have hone := hpos (by rw [hret]; rfl)
    have htwo := hn.le_two
    refine ⟨?_, ?_, ?_, ?_, n, by omega, hn.calls⟩
    · exact run_of_returned hret (hend.joined hret)
    · have := hend.running
      grind
    · rw [hend.halted]
      grind
    · rw [hn.calls, List.getLast?_append, List.getLast?_replicate, if_neg (Nat.ne_of_gt hone)]
      rfl

/-- The stop takes the flag down while the only iteration of the run is made. -/
def lateStop : List ThreadStep := [.loop, .loop, .stop, .loop, .stop, .stop, .loop, .loop, .stop]

/-- Both threads release the motor then, the stop first. -/
theorem stop_safe_late :
    ∃ r started : Runner CrashingStage,
      Runner.create {} { maxIterations := some 1 } { stage := { inputVoltage := 46.0 } } = .ok r ∧
        r.start = (.ok (), started) ∧
        let t : Threads (Recorded CrashingStage) := run { runner := started.recorded } lateStop
        t.stop = .returned ∧ t.calls.length = 3 ∧ t.runner.running = false ∧
          t.runner.halted = true ∧ t.calls.getLast? = some .release := by
  obtain ⟨r, started, hr, hstart, hret, hlen⟩ : ∃ r started : Runner CrashingStage,
      Runner.create {} { maxIterations := some 1 } { stage := { inputVoltage := 46.0 } } = .ok r ∧
        r.start = (.ok (), started) ∧
        let t : Threads (Recorded CrashingStage) := run { runner := started.recorded } lateStop
        t.stop = .returned ∧ t.calls.length = 3 :=
    ⟨_, _, rfl, rfl, by decide +kernel, by decide +kernel⟩
  have hs : r.stage.crashOnRelease = false := by
    cases hr
    rfl
  obtain ⟨-, -, hsafe, -⟩ := stop_safe CrashingStage.dependable.releasable hs hstart lateStop
  obtain ⟨-, hrunning, hhalted, hlast, -⟩ := hsafe hret
  exact ⟨r, started, hr, hstart, hret, hlen, hrunning, hhalted, hlast⟩

end

end Threads
end BusRegen
