import BusRegen.Proofs.Stage.History
import BusRegen.Proofs.Stage.Scripted
/-!
# The voltages that a stage delivers

A scripted stage has two sources of voltages: the script, from which each successful reading takes
the first entry, and the voltage that it falls back on when the script has run out. The second is
set from outside or left behind by the last entry, whichever came last, so it depends on the order
of settings and readings over the whole history.

`Feed` is what an observer notes down about the voltages that went in and came out since the stage
was new or reset. At any time the voltages that have come out of the script and those that are left
in it are together the ones that were put into it, in the same order (`Feed.Account.order`): none is
lost, none is delivered twice, and none overtakes another.
-/
namespace BusRegen.ScriptedStage

/-- What an observer notes down about the voltages of a stage. -/
structure Feed where
  /-- The voltages that were appended to the script, from first to last. -/
  pushed : List Float := []
  /-- The voltages of the successful readings that found an entry in the script. -/
  delivered : List Float := []
  /-- The voltage that was put in place last, from outside or from the script. -/
  latest : Float

namespace Feed

def note (s : ScriptedStage) (f : Feed) : Operation → Feed
  | .read =>
    match s.readVoltage.1, s.script with
    | .done v, _ :: _ => { f with delivered := f.delivered ++ [v], latest := v }
    | _, _ => f
  | .set (.voltage v) => { f with latest := v }
  | .set (.script vs) => { f with pushed := f.pushed ++ vs }
  | .set .reset => { latest := 48.0 }
  | .drive _ | .resetWatchdog | .set _ => f

/-- Where the noted voltages are. -/
structure Account (s : ScriptedStage) (f : Feed) : Prop where
  order : f.delivered ++ s.script = f.pushed
  inputVoltage : s.inputVoltage = f.latest

end Feed

namespace Feed.Account

variable {s : ScriptedStage} {f : Feed}

theorem read (h : Account s f) : Account (s.perform .read) (note s f .read) := by
  have hread := s.read_readVoltage
  unfold perform note
  dsimp only
  generalize s.readVoltage = r at hread ⊢
  cases hread with
  | failed => exact ⟨h.order, h.inputVoltage⟩
  | @scripted v rest _ hs =>
    have horder : f.delivered ++ [v] ++ rest = f.pushed := by
      rw [← List.append_cons, ← hs, h.order]
    rw [hs]
    exact ⟨horder, rfl⟩
  | direct _ hs =>
    have horder := h.order
    rw [hs] at horder ⊢
    exact ⟨horder, h.inputVoltage⟩

theorem perform (h : Account s f) (op : Operation) : Account (s.perform op) (note s f op) := by
  cases op with
  | read => exact h.read
  | drive k =>
    rw [ScriptedStage.perform, drive_eq]
    split <;> exact ⟨h.order, h.inputVoltage⟩
  | resetWatchdog => exact ⟨h.order, h.inputVoltage⟩
  | set x =>
    cases x with
    | voltage v => exact ⟨h.order, rfl⟩
    | script vs =>
      refine ⟨?_, h.inputVoltage⟩
      change f.delivered ++ (s.script ++ vs) = f.pushed ++ vs
      rw [← List.append_assoc, h.order]
    | reset => exact ⟨rfl, rfl⟩
    | sensorFails | actuatorFails | logCapacity => exact ⟨h.order, h.inputVoltage⟩

/-- What a reading gives if the sensor does not fail: the first of the voltages that were not
delivered yet, and the latest one if there are none left. -/
theorem readVoltage_eq (h : Account s f) (hworks : s.sensorFails = false) :
    s.readVoltage.1 = .done (f.pushed[f.delivered.length]?.getD f.latest) := by
  have hread := s.read_readVoltage
  generalize s.readVoltage = r at hread ⊢
  cases hread with
  | failed _ hfails => rw [hworks] at hfails; cases hfails
  | scripted _ hs =>
    rw [← h.order, hs, List.getElem?_append_right (Nat.le_refl _), Nat.sub_self]
    rfl
  | direct _ hs =>
    have hall : f.delivered = f.pushed := by rw [← h.order, hs, List.append_nil]
    rw [hall, List.getElem?_eq_none (Nat.le_refl _), h.inputVoltage]
    rfl

end Feed.Account

theorem readVoltage_of_fails {s : ScriptedStage} (h : s.sensorFails = true) :
    ∃ f, s.readVoltage = (.fault f, { s with reads := s.reads + 1 }) :=
  ⟨_, if_pos h⟩

/-- **Scripted voltages are delivered in order, once and without loss.** In every history since the
stage was new or reset, what the script has delivered and what is left of it are together what was
put into it, in the same order. The next reading gives the first voltage that is left, or the one
that was put in place last if there is none. A reading that fails is counted and changes nothing
else. -/
theorem script_in_order (v : Float) (n : Nat) (ops : List Operation) :
    let s := (fresh v n).run ops
    let f := observe Feed.note (fresh v n) { latest := v } ops
    f.delivered ++ s.script = f.pushed ∧
    s.script.length = f.pushed.length - f.delivered.length ∧
    (s.sensorFails = true →
      ∃ e, s.readVoltage = (.fault e, { s with reads := s.reads + 1 })) ∧
    (s.sensorFails = false →
      s.readVoltage.1 = .done (f.pushed[f.delivered.length]?.getD f.latest)) := by
  intro s f
  have h : Feed.Account s f :=
    observe_induction (P := Feed.Account) ⟨rfl, rfl⟩ (fun _ _ op h => h.perform op) ops
  refine ⟨h.order, ?_, readVoltage_of_fails, h.readVoltage_eq⟩
  rw [← h.order, List.length_append, Nat.add_sub_cancel_left]

/-- The script goes on after a reading that fails, whatever voltage is put in place before its end,
and its last voltage counts from then on. -/
theorem script_in_order_failing :
    let ops : List Operation :=
      [.set (.script [47, 46]), .read, .set (.voltage 40), .set (.sensorFails true)]
    let t := (fresh 48 10).run ops
    let t' := (fresh 48 10).run (ops ++ [.read, .set (.sensorFails false)])
    let t'' := (fresh 48 10).run (ops ++ [.read, .set (.sensorFails false), .read])
    (∃ e, t.readVoltage = (.fault e, { t with reads := t.reads + 1 })) ∧ t.script.length = 1 ∧
      t'.readVoltage.1 = .done 46 ∧ t''.script.length = 0 ∧ t''.readVoltage.1 = .done 46 := by
  intro ops t t' t''
  obtain ⟨-, hleft, hfails, -⟩ := script_in_order 48 10 ops
  obtain ⟨-, -, -, hnext⟩ := script_in_order 48 10 (ops ++ [.read, .set (.sensorFails false)])
  obtain ⟨-, hnone, -, hlatest⟩ :=
    script_in_order 48 10 (ops ++ [.read, .set (.sensorFails false), .read])
  exact ⟨hfails rfl, hleft, hnext rfl, hnone, hlatest rfl⟩

end BusRegen.ScriptedStage
