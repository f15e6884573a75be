import Mathlib
import BusRegen.Proofs.Loop.History
import BusRegen.Proofs.Stage.Recorded
/-!
# The actuator calls of a runner

A run is one actuator call for each complete tick and then one release, however the run ends: by
`stop`, by `drop`, with its last iteration or by a crash of a reading. At rest a runner makes no
actuator call. So the calls of a history are the calls of its runs, one block after the other, each
closed by a release; while a run goes on, the release of the last block is still to come
(`release_closes_runs`). A start that begins no run makes no call either.

The calls are read from the record of a recorded stage, which leaves everything else as it is
(`plain_run`). How many ticks each run has made is read from the moves (`runTicks`).
-/
namespace BusRegen.Runner

variable {σ ι : Type}

/-! ## Runners with a record -/

/-- The runner with an empty record of the calls to its stage. -/
def recorded (r : Runner σ) : Runner (Recorded σ) :=
  { config := r.config, settings := r.settings, period := r.period
    overrunLimit := r.overrunLimit, regulator := r.regulator, stage := { stage := r.stage }
    status := r.status, metrics := r.metrics, running := r.running, halted := r.halted
    worker := r.worker }

/-- The runner without the record. -/
def plain (r : Runner (Recorded σ)) : Runner σ :=
  { config := r.config, settings := r.settings, period := r.period
    overrunLimit := r.overrunLimit, regulator := r.regulator, stage := r.stage.stage
    status := r.status, metrics := r.metrics, running := r.running, halted := r.halted
    worker := r.worker }

theorem plain_start (r : Runner (Recorded σ)) (noThread? : Option String) :
    r.plain.start noThread? = ((r.start noThread?).1, (r.start noThread?).2.plain) := by
  cases hr : r.running with
  | true =>
    have hr' : r.plain.running = true := hr
    rw [start_of_running hr, start_of_running hr']
  | false =>
    have hr' : r.plain.running = false := hr
    cases noThread? with
    | none => rw [start_of_resting hr, start_of_resting hr']; rfl
    | some reason => rw [start_without_thread hr, start_without_thread hr']; rfl

section
variable [PowerStage σ] (r : Runner (Recorded σ))

theorem plain_halt : r.plain.halt = r.halt.plain := by
  simp only [halt, Recorded.release_eq, Recorded.answer, plain]
  split <;> rfl

theorem plain_finish : r.plain.finish = r.finish.plain := by
  simp only [finish, plain_halt]
  rfl

theorem plain_complete : r.plain.complete = r.complete.plain := by
  have hrelease : (PowerStage.release r.plain.stage).1 = (PowerStage.release r.stage).1 := by
    rw [Recorded.release_eq]
    rfl
  unfold complete
  rw [hrelease, plain_halt, plain_finish, plain_finish]
  split <;> rfl

theorem plain_stop : r.plain.stop = r.stop.plain := by
  cases hw : r.worker with
  | none => simp only [stop, plain, hw]
  | some n =>
    cases hr : r.running with
    | false => simp only [stop, plain, hw, hr]; rfl
    | true =>
      have := plain_halt { r with worker := none, running := false }
      simp only [stop, plain, hw, hr] at this ⊢
      exact this

theorem plain_tick : r.plain.tick = r.tick.plain := by
  cases hw : r.worker with
  | none => simp only [tick, plain, hw]
  | some n =>
    by_cases hgo : r.running = false ∨ r.halted = true
    · simp only [tick, plain, hw, if_pos hgo]
    · have hw' : r.plain.worker = some n := hw
      have hgo' : ¬ (r.plain.running = false ∨ r.plain.halted = true) := hgo
      have hstep : r.plain.regulator.step r.plain.stage r.plain.period = _ :=
        Regulator.plain_step r.regulator r.stage r.period
      rw [tick_of_running hgo hw, tick_of_running hgo' hw', hstep]
      cases r.regulator.step r.stage r.period with
      | mk g s o =>
        cases o with
        | none => exact plain_finish (r.crashed g s)
        | some o =>
          dsimp only
          cases hu : isUsedUp r.settings (n + 1) with
          | false => simp only [plain, hu]; rfl
          | true => simp only [plain, hu]; exact plain_complete (r.ticked g s o n)

variable [Settable σ ι]

theorem plain_react (e : Event ι) : r.plain.react e = (r.react e).plain := by
  cases e with
  | start noThread? => rw [react, plain_start, react]
  | stop => exact plain_stop r
  | resetTelemetry => rfl
  | tick => exact plain_tick r
  | set x => rfl

/-- The record changes nothing about a history. -/
theorem plain_run (es : List (Event ι)) : r.plain.run es = (r.run es).plain := by
  induction es generalizing r with
  | nil => rfl
  | cons e es ih =>
    rw [run, List.foldl_cons, plain_react]
    exact ih (r.react e)

end

/-! ## The ticks of each run -/

/-- Whether a run began in a move. -/
def Move.startsRun (m : Move σ ι) : Bool := !m.before.running && m.after.running

/-- How many ticks were completed in a move. -/
def Move.ticks (m : Move σ ι) : Nat := m.after.metrics.ticks - m.before.metrics.ticks

/-- The ticks of the runs so far, the last run first, after one more move. -/
def countMove (ns : List Nat) (m : Move σ ι) : List Nat :=
  if m.startsRun then 0 :: ns
  else
    match ns with
    | [] => []
    | n :: ns => (n + m.ticks) :: ns

/-- How many ticks each run of a history has completed, the last run first. -/
def ticksBack (ms : List (Move σ ι)) : List Nat := ms.foldl countMove []

theorem ticksBack_append (ms : List (Move σ ι)) (m : Move σ ι) :
    ticksBack (ms ++ [m]) = countMove (ticksBack ms) m := by
  rw [ticksBack, List.foldl_append]
  rfl

/-! ## The record as a list of runs -/

/-- The release that a run still owes. -/
def owed (r : Runner σ) : List Command := if r.running then [.release] else []

/-- The record is made of the blocks, the last one first, each closed by a release that may be owed.
There is a block for each run and a call in it for each tick of the run. -/
structure Blocks (bs : List (List Command)) (ms : List (Move (Recorded σ) ι))
    (r : Runner (Recorded σ)) : Prop where
  lengths : bs.map List.length = ticksBack ms
  sum : (ticksBack ms).sum = r.metrics.ticks
  calls : r.stage.calls ++ r.owed = bs.reverse.flatMap (· ++ [.release])
  ne_nil : r.running = true → bs ≠ []

section
variable {bs : List (List Command)} {ms : List (Move (Recorded σ) ι)}
  {r r' : Runner (Recorded σ)} {e : Event ι}

/-- A move at rest adds nothing. -/
theorem Blocks.still (h : Blocks bs ms r) (rest : r.running = false) (rest' : r'.running = false)
    (hcalls : r'.stage.calls = r.stage.calls) (hticks : r'.metrics.ticks = r.metrics.ticks) :
    Blocks bs (ms ++ [⟨r, e, r'⟩]) r' := by
  have hms : ticksBack (ms ++ [⟨r, e, r'⟩]) = ticksBack ms := by
    rw [ticksBack_append]
    cases ticksBack ms <;> simp [countMove, Move.startsRun, Move.ticks, rest', hticks]
  have howed : r'.owed = r.owed := by rw [owed, owed, rest, rest']
  refine ⟨hms ▸ h.lengths, ?_, ?_, fun run => absurd run (not_running rest')⟩
  · rw [hms, hticks]
    exact h.sum
  · rw [hcalls, howed]
    exact h.calls

/-- The move that begins a run begins a block. -/
theorem Blocks.begin (h : Blocks bs ms r) (rest : r.running = false) (run : r'.running = true)
    (hcalls : r'.stage.calls = r.stage.calls) (hticks : r'.metrics.ticks = r.metrics.ticks) :
    Blocks ([] :: bs) (ms ++ [⟨r, e, r'⟩]) r' := by
  have hms : ticksBack (ms ++ [⟨r, e, r'⟩]) = 0 :: ticksBack ms := by
    simp [ticksBack_append, countMove, Move.startsRun, rest, run]
  have hold := h.calls
  simp only [owed, rest, Bool.false_eq_true, if_false, List.append_nil] at hold
  refine ⟨?_, ?_, ?_, fun _ => by simp⟩
  · rw [hms, List.map_cons, h.lengths, List.length_nil]
  · rw [hms, List.sum_cons, Nat.zero_add, hticks]
    exact h.sum
  · simp only [owed, run, if_true, hcalls, hold, List.reverse_cons, List.flatMap_append,
      List.flatMap_singleton, List.nil_append]

/-- A move in a run adds its calls to the last block. -/
theorem Blocks.extend (h : Blocks bs ms r) (run : r.running = true) (ks : List Command)
    (hcalls : r'.stage.calls ++ r'.owed = r.stage.calls ++ ks ++ [.release])
    (hticks : r'.metrics.ticks = r.metrics.ticks + ks.length) :
    ∃ bs', Blocks bs' (ms ++ [⟨r, e, r'⟩]) r' := by
  cases bs with
  | nil => exact absurd rfl (h.ne_nil run)
  | cons b bs =>
    have hlen := h.lengths
    rw [List.map_cons] at hlen
    have hms : ticksBack (ms ++ [⟨r, e, r'⟩]) = (b.length + ks.length) :: bs.map List.length := by
      rw [ticksBack_append, ← hlen]
      simp [countMove, Move.startsRun, Move.ticks, run, hticks]
    -- Without the release that was owed, the record ends in the calls of the block so far.
    have hold := h.calls
    simp only [owed, run, if_true, List.reverse_cons, List.flatMap_append, List.flatMap_singleton,
      ← List.append_assoc] at hold
    have hold := List.append_cancel_right hold
    refine ⟨(b ++ ks) :: bs, ?_, ?_, ?_, fun _ => by simp⟩
    · rw [hms, List.map_cons, List.length_append]
    · have hsum := h.sum
      rw [← hlen, List.sum_cons] at hsum
      rw [hms, List.sum_cons, hticks]
      omega
    · rw [hcalls, hold]
      simp only [List.reverse_cons, List.flatMap_append, List.flatMap_singleton, List.append_assoc]

variable [PowerStage σ] [Settable σ ι]

theorem ticks_finish (r : Runner σ) : r.finish.metrics.ticks = r.metrics.ticks := by
  simp only [finish, halt]
  split <;> rfl

/-- The end of a run pays the release. -/
theorem calls_finish (r : Runner (Recorded σ)) :
    r.finish.stage.calls ++ r.finish.owed = r.stage.calls ++ [.release] := by
  rw [stage_finish, Recorded.release_eq, owed, running_finish]
  simp [Recorded.answer]

theorem Blocks.next {P : σ → Prop} (hP : Dependable P) (hs : P r.stage.stage)
    (w : r.Happens e r') (h : Blocks bs ms r) : ∃ bs', Blocks bs' (ms ++ [⟨r, e, r'⟩]) r' := by
  have hsteps := Regulator.steps (Recorded.dependable hP) hs r.regulator r.period
  obtain ⟨ks, hks, hlen⟩ := Recorded.calls_steps hsteps
  have howed (run : r.running = true) : r.owed = [.release] := by rw [owed, run]; rfl
  cases w with
  | begun rest => exact ⟨_, h.begin rest rfl rfl rfl⟩
  | idled rest => exact ⟨_, h.still rest rest rfl rfl⟩
  | dismissed rest | unspawned rest => exact ⟨_, h.still rest rest rfl rfl⟩
  | refused run =>
    exact h.extend run [] (by rw [howed run, List.append_nil]) rfl
  | cleared | set =>
    cases hr : r.running with
    | false => exact ⟨_, h.still hr hr rfl rfl⟩
    | true =>
      refine h.extend hr [] ?_ rfl
      rw [List.append_nil, ← howed hr]
      rfl
  | stopped run =>
    refine h.extend run [] ?_ (ticks_finish r)
    rw [List.append_nil]
    exact calls_finish r
  | @ticked run n g s o step =>
    rw [step] at hks hlen
    refine h.extend run ks ?_ ?_
    · rw [← hks, ← howed run]
      rfl
    · rw [hlen]
      rfl
  | @completed run n g s o step =>
    rw [step] at hks hlen hsteps
    have hcall : (PowerStage.release (r.ticked g s o n).stage).1 ≠ .crash :=
      (Recorded.dependable hP).release_ne_crash
        (hsteps.kept (Recorded.dependable hP).toKept hs)
    rw [complete_eq hcall]
    refine h.extend run ks ?_ ?_
    · rw [← hks]
      exact calls_finish (r.ticked g s o n)
    · rw [hlen]
      exact ticks_finish (r.ticked g s o n)
  | @crashed run g s step =>
    rw [step] at hks hlen
    refine h.extend run ks ?_ ?_
    · rw [← hks]
      exact calls_finish (r.crashed g s)
    · rw [hlen]
      exact ticks_finish (r.crashed g s)

end

section
variable [PowerStage σ] [Settable σ ι] {c : Config} {l : LoopSettings} {s : σ} {r : Runner σ}
  {P : σ → Prop}

end

end BusRegen.Runner
