import BusRegen.Proofs.Stage.History
import BusRegen.Proofs.Stage.Scripted
import Mathlib.Data.List.DropRight
/-!
# The command log and its history

A scripted stage keeps a few figures and a log of limited size about the commands that it accepts.
`LogBook` is what an observer notes down about them without a limit: all commands since the stage
was new or reset, and the capacities that the log has had in that time. `Account` ties the two
together: the figures are those of the noted commands, and the log is the end of them, cut off at no
more than the capacity.

Both ways to change a log are the same cut. A command is put at the end and the log cut at its
capacity, whether that is zero or not (`CommandLog.toList_push_eq`); a new capacity cuts the log
there (`CommandLog.toList_resize_eq`). The first of these needs that the log is within its capacity
beforehand, so every operation has to keep it there. As long as the capacity stays the same, cuts
taken one after the other come to a single cut of all commands (`rtake_concat`), and the log has the
last commands, as many as go in (`Account.window`). A log that was short for a time has lost what
was cut off then.
-/
namespace BusRegen

/-! ## The end of a list -/

section
variable {α : Type} (xs : List α) (n : Nat)

theorem length_rtake_le : (xs.rtake n).length ≤ n := by
  rw [List.rtake, List.length_drop]
  omega

variable {xs n} in
theorem rtake_of_length_le (h : xs.length ≤ n) : xs.rtake n = xs := by
  rw [List.rtake, Nat.sub_eq_zero_of_le h, List.drop_zero]

/-- What is cut off before can be cut off later. -/
theorem rtake_concat (x : α) : (xs.rtake n ++ [x]).rtake n = (xs ++ [x]).rtake n := by
  cases n with
  | zero => rw [List.rtake_zero, List.rtake_zero]
  | succ n =>
    have hcut : (xs.rtake (n + 1)).rtake n = xs.rtake n := by
      rw [List.rtake, List.rtake, List.rtake, List.drop_drop, List.length_drop]
      congr 1
      omega
    rw [List.rtake_concat_succ, List.rtake_concat_succ, hcut]

end

namespace CommandLog

variable {l : CommandLog}

theorem toList_push_eq (h : l.toList.length ≤ l.capacity) (k : Command) :
    (l.push k).toList = (l.toList ++ [k]).rtake l.capacity := by
  rw [toList_push, ← length_toList, List.rtake, List.length_append, List.length_singleton]
  split
  -- A log without capacity is empty, so the cut that leaves nothing leaves it as it was.
  · next hzero =>
    have hnone : l.toList = [] := List.length_eq_zero_iff.1 (by omega)
    rw [hzero, hnone]
    rfl
  · split
    · next hpos hfull =>
      have hone : l.toList.length + 1 - l.capacity = 1 := by omega
      rw [hone, ← List.drop_one, List.drop_append_of_le_length (by omega)]
    · next hroom =>
      have hnone : l.toList.length + 1 - l.capacity = 0 := by omega
      rw [hnone, List.drop_zero]

theorem toList_resize_eq (l : CommandLog) (n : Nat) : (l.resize n).toList = l.toList.rtake n := by
  rw [toList_resize, ← length_toList, List.rtake]

end CommandLog

namespace ScriptedStage

/-! ## What is noted down -/

/-- What an observer notes down about the commands of a stage. -/
structure LogBook where
  /-- The commands that were accepted since the stage was new or reset. -/
  commands : List Command := []
  /-- The capacities that the log has had in that time. -/
  capacities : List Nat

namespace LogBook

/-- An empty book about a log of this capacity. -/
def new (capacity : Nat) : LogBook := { capacities := [capacity] }

def note (s : ScriptedStage) (b : LogBook) : Operation → LogBook
  | .drive k =>
    match (PowerStage.drive s k).1 with
    | .done () => { b with commands := b.commands ++ [k] }
    | _ => b
  | .set (.logCapacity n) => { b with capacities := n :: b.capacities }
  | .set .reset => .new s.log.capacity
  | .read | .resetWatchdog | .set _ => b

/-- What an operation comes to: nothing that concerns the drive, a command that is accepted, another
capacity, or a new beginning. -/
inductive Entry (s : ScriptedStage) (b : LogBook) : ScriptedStage → LogBook → Prop where
  | untouched {s'} (h : Undriven s s') : Entry s b s' b
  | accepted (k : Command) : Entry s b (s.accept k) { b with commands := b.commands ++ [k] }
  | resized (n : Nat) :
    Entry s b { s with log := s.log.resize n } { b with capacities := n :: b.capacities }
  | renewed : Entry s b (fresh 48.0 s.log.capacity) (.new s.log.capacity)

theorem entry_perform (s : ScriptedStage) (b : LogBook) (op : Operation) :
    Entry s b (s.perform op) (note s b op) := by
  cases op with
  | read => exact .untouched s.undriven_readVoltage
  | resetWatchdog => exact .untouched (Undriven.resetWatchdog (by constructor <;> rfl))
  | drive k =>
    rw [perform, note]
    cases h : s.actuatorFails with
    | true =>
      rw [drive_refused h]
      exact .untouched (by constructor <;> rfl)
    | false =>
      rw [drive_accepted h]
      exact .accepted k
  | set x =>
    cases x with
    | logCapacity n => exact .resized n
    | reset =>
      rw [perform, set_reset]
      exact .renewed
    | voltage | script | sensorFails | actuatorFails => exact .untouched (by constructor <;> rfl)

/-! ## What the stage shows of it -/

/-- A stage and the book about it. -/
structure Account (s : ScriptedStage) (b : LogBook) : Prop where
  accepted : s.accepted = b.commands.length
  calls : s.applyCalls + s.releaseCalls = b.commands.length
  lastCommand : s.lastCommand = b.commands.getLast?
  appliedCurrent : s.appliedCurrent = b.commands.getLast?.elim 0 Command.current
  motorReleased : s.motorReleased = true ↔ b.commands.getLast? = some .release
  length_le : s.log.toList.length ≤ s.log.capacity
  suffix : s.log.toList <:+ b.commands
  /-- The last commands, as many as there is room for, if the room was always the same. -/
  window : ∀ c, (∀ n ∈ b.capacities, n = c) → s.log.toList = b.commands.rtake c
  capacity_mem : s.log.capacity ∈ b.capacities

theorem account_fresh (v : Float) (n : Nat) : Account (fresh v n) (.new n) where
  accepted := rfl
  calls := rfl
  lastCommand := rfl
  appliedCurrent := rfl
  motorReleased := by simp [fresh, new]
  length_le := Nat.zero_le _
  suffix := List.suffix_refl _
  window c _ := (List.rtake_nil c).symm
  capacity_mem := List.mem_singleton_self n

namespace Account

variable {s s' : ScriptedStage} {b b' : LogBook}

theorem untouched (h : Account s b) (hs : Undriven s s') : Account s' b where
  accepted := hs.accepted.trans h.accepted
  calls := by rw [hs.applyCalls, hs.releaseCalls, h.calls]
  lastCommand := hs.lastCommand.trans h.lastCommand
  appliedCurrent := hs.appliedCurrent.trans h.appliedCurrent
  motorReleased := hs.motorReleased ▸ h.motorReleased
  length_le := hs.log ▸ h.length_le
  suffix := hs.log ▸ h.suffix
  window := hs.log ▸ h.window
  capacity_mem := hs.log ▸ h.capacity_mem

theorem accept (h : Account s b) (k : Command) :
    Account (s.accept k) { b with commands := b.commands ++ [k] } := by
  have hlast : (b.commands ++ [k]).getLast? = some k := List.getLast?_concat
  have hlength : (b.commands ++ [k]).length = b.commands.length + 1 := List.length_append
  have hlog : (s.log.push k).toList = (s.log.toList ++ [k]).rtake s.log.capacity :=
    CommandLog.toList_push_eq h.length_le k
  have hcapacity : (s.log.push k).capacity = s.log.capacity := s.log.capacity_push k
  unfold ScriptedStage.accept record
  constructor
  case accepted => rw [hlength, h.accepted]
  case calls =>
    rw [hlength, ← h.calls]
    cases k with
    | apply x => exact Nat.add_right_comm _ _ _
    | release => rfl
  case lastCommand => exact hlast.symm
  case appliedCurrent => rw [hlast]; rfl
  case motorReleased =>
    rw [hlast, Option.some_inj]
    cases k <;> simp [Command.isRelease]
  case length_le =>
    rw [hlog, hcapacity]
    exact length_rtake_le _ _
  case suffix =>
    rw [hlog]
    exact (List.drop_suffix _ _).trans (List.suffix_append_self_iff.2 h.suffix)
  case window =>
    intro c hc
    rw [hlog, hc _ h.capacity_mem, h.window c hc, rtake_concat]
  case capacity_mem =>
    rw [hcapacity]
    exact h.capacity_mem

theorem resize (h : Account s b) (n : Nat) :
    Account { s with log := s.log.resize n } { b with capacities := n :: b.capacities } := by
  have hlog : (s.log.resize n).toList = s.log.toList.rtake n := s.log.toList_resize_eq n
  refine
    { h with
      length_le := ?length_le, suffix := ?suffix, window := ?window, capacity_mem := ?capacity_mem }
  case length_le =>
    rw [hlog]
    exact length_rtake_le _ _
  case suffix =>
    rw [hlog]
    exact (List.drop_suffix _ _).trans h.suffix
  case window =>
    intro c hc
    rw [List.forall_mem_cons] at hc
    -- The capacity is set to what it was, and nothing is cut off.
    have hroom : s.log.toList.length ≤ n := by
      rw [hc.1, ← hc.2 _ h.capacity_mem]
      exact h.length_le
    rw [hlog, rtake_of_length_le hroom, h.window c hc.2]
  case capacity_mem => exact List.mem_cons_self

theorem entry (h : Account s b) (he : Entry s b s' b') : Account s' b' := by
  cases he with
  | untouched hs => exact h.untouched hs
  | accepted k => exact h.accept k
  | resized n => exact h.resize n
  | renewed => exact account_fresh _ _

end Account

/-- An operation enters one command at most. -/
theorem Entry.length_le {s s' : ScriptedStage} {b b' : LogBook} (he : Entry s b s' b') :
    b'.commands.length ≤ b.commands.length + 1 := by
  cases he with
  | untouched | resized => exact Nat.le_succ _
  | accepted => exact List.length_append.le
  | renewed => exact Nat.zero_le _

theorem length_commands_le (s : ScriptedStage) (b : LogBook) (ops : List Operation) :
    (observe note s b ops).commands.length ≤ b.commands.length + ops.length := by
  induction ops generalizing s b with
  | nil => exact Nat.le_refl _
  | cons op ops ih =>
    have hone := (entry_perform s b op).length_le
    have hrest := ih (s.perform op) (note s b op)
    rw [observe, List.length_cons]
    omega

end LogBook

/-- **The command log is the end of the history.** After every history on a new stage its figures
are those of the commands that were accepted since it was new or reset, and its log is the end of
these commands, within its capacity, and as many as go in if the capacity was the same all the time.
A command that is not accepted leaves the stage as it was. As no history has more commands than
operations, a machine word that counts the operations counts the commands. -/
theorem commands_accounted (v : Float) (n : Nat) (ops : List Operation) :
    let s := (fresh v n).run ops
    let b := observe LogBook.note (fresh v n) (.new n) ops
    LogBook.Account s b ∧
      (∀ k, (PowerStage.drive s k).1 ≠ .done () → (PowerStage.drive s k).2 = s) ∧
      b.commands.length ≤ ops.length := by
  intro s b
  refine ⟨?_, fun k hk => ?_, ?_⟩
  · exact observe_induction (LogBook.account_fresh v n)
      (fun s b op h => h.entry (LogBook.entry_perform s b op)) ops
  · cases h : s.actuatorFails with
    | true => rw [drive_refused h]
    | false => exact absurd (congrArg Prod.fst (drive_accepted h k)) hk
  · exact (LogBook.length_commands_le _ _ ops).trans_eq (Nat.zero_add _)

/-- A log for two commands when the third has come, and a release that is refused. -/
theorem commands_accounted_refusing :
    let ops : List Operation :=
      [.drive (.apply (-1)), .read, .drive .release, .drive (.apply (-2)),
        .set (.actuatorFails true)]
    let s := (fresh 48 2).run ops
    s.log.toList = [.release, .apply (-2)] ∧ s.accepted = 3 ∧ s.appliedCurrent = -2 ∧
      (PowerStage.drive s .release).2 = s := by
  intro ops s
  obtain ⟨haccount, hrefused, -⟩ := commands_accounted 48 2 ops
  refine ⟨haccount.window 2 (by decide), haccount.accepted, haccount.appliedCurrent, ?_⟩
  exact hrefused .release (by intro h; cases h)

end ScriptedStage
end BusRegen
