import BusRegen.Proofs.Profile.Ending
import Mathlib.Data.List.Induction
/-!
# Sequences of holds

A sequence grows at its end: one more hold changes nothing before the natural duration of the
others, and from then on it is the one that shows (`voltageAt_concat`). So each hold has its own
stretch of time, from the natural duration of the holds before it up to but not at the natural
duration with it. The first hold shows before that as well, and the last one stays (`InForce`).

By induction on the sequence there is a hold in force at every time, and the curve has its voltage
(`exists_inForce`). Natural durations do not go back, so neither do the holds, and at one time only
one is in force (`InForce.mono`, `InForce.unique`).

A hold of no length has no stretch. It shows in two cases only: it is the last one, or it is the
first one and the time is below zero (`InForce.of_zero`, `zero_hold_shows`).
-/
namespace BusRegen

open Scalar

namespace Profile

variable {holds : List Hold} {t t' : Float}

/-! ## One more hold -/

theorem elapsedAfter_append (elapsed : Float) (holds later : List Hold) :
    elapsedAfter elapsed (holds ++ later) = elapsedAfter (elapsedAfter elapsed holds) later :=
  List.foldl_append

/-- The holds that come later are asked for times after the others only. They go on from there. -/
theorem heldAt_append (hne : holds ≠ []) (hholds : ∀ h ∈ holds, h.IsTimed) {elapsed : Float}
    (he : elapsed.isNaN = false) (t last : Float) (later : List Hold) :
    heldAt t elapsed last (holds ++ later) =
      if t < elapsedAfter elapsed holds then heldAt t elapsed last holds
      else heldAt t (elapsedAfter elapsed holds) (heldAt t elapsed last holds) later := by
  induction holds generalizing elapsed last with
  | nil => exact absurd rfl hne
  | cons h holds ih =>
    rw [List.forall_mem_cons] at hholds
    have hnum := isNaN_add_right he hholds.1.finite
    have hend : elapsedAfter elapsed (h :: holds) = elapsedAfter (elapsed + h.duration) holds := rfl
    rw [List.cons_append, heldAt, heldAt, hend]
    by_cases hlt : t < elapsed + h.duration
    · have hbefore := lt_of_lt_of_le hlt (le_elapsedAfter hholds.2 hnum)
      rw [if_pos hlt, if_pos hlt, if_pos hbefore]
    · rw [if_neg hlt, if_neg hlt]
      cases holds with
      | nil => exact (if_neg hlt).symm
      | cons h' holds => exact ih (List.cons_ne_nil _ _) hholds.2 hnum h.voltage

/-- The sums that a curve compares a time with begin at the other zero than natural durations. -/
theorem lt_naturalDuration_iff (hholds : ∀ h ∈ holds, h.IsTimed) :
    t < (sequence holds).naturalDuration ↔ t < elapsedAfter 0 holds :=
  ⟨fun h => lt_of_lt_of_le h (elapsedAfter_mono hholds (by decide)),
    fun h => lt_of_lt_of_le h (elapsedAfter_mono hholds (by decide))⟩

theorem isNaN_naturalDuration (hholds : ∀ h ∈ holds, h.IsTimed) :
    (sequence holds).naturalDuration.isNaN = false :=
  (isNaN_of_le (le_elapsedAfter hholds (by decide : (Scalar.zero true).isNaN = false))).2

theorem voltageAt_concat (hne : holds ≠ []) (hholds : ∀ h ∈ holds, h.IsTimed) (h : Hold)
    (t : Float) :
    (sequence (holds ++ [h])).voltageAt t =
      if t < (sequence holds).naturalDuration then (sequence holds).voltageAt t else h.voltage := by
  change heldAt t 0 Scalar.nan (holds ++ [h]) = _
  rw [heldAt_append hne hholds isNaN_zero, heldAt, heldAt, ite_self]
  exact ite_congr (propext (lt_naturalDuration_iff hholds).symm) (fun _ => rfl) (fun _ => rfl)

/-! ## Which hold is in force -/

/-- The hold `h` is the one with the number `i`, and the time is on its stretch. -/
structure InForce (holds : List Hold) (t : Float) (i : Nat) (h : Hold) : Prop where
  get : holds[i]? = some h
  begun : i = 0 ∨ (sequence (holds.take i)).naturalDuration ≤ t
  unended : i + 1 = holds.length ∨ t < (sequence (holds.take (i + 1))).naturalDuration

theorem naturalDuration_mono (hholds : ∀ h ∈ holds, h.IsTimed) {i j : Nat} (hij : i ≤ j) :
    (sequence (holds.take i)).naturalDuration ≤ (sequence (holds.take j)).naturalDuration := by
  obtain ⟨later, hlater⟩ := List.take_prefix_take_left (l := holds) hij
  have htimed : ∀ h ∈ holds.take i ++ later, h.IsTimed := fun h hh =>
    hholds h (List.mem_of_mem_take (hlater ▸ hh))
  rw [List.forall_mem_append] at htimed
  rw [← hlater]
  change _ ≤ elapsedAfter (Scalar.zero true) (holds.take i ++ later)
  rw [elapsedAfter_append]
  exact le_elapsedAfter htimed.2 (isNaN_naturalDuration htimed.1)

namespace InForce

variable {i j : Nat} {h h' : Hold}

/-- Later on no earlier hold is in force. -/
theorem mono (hholds : ∀ h ∈ holds, h.IsTimed) (hi : InForce holds t i h)
    (hj : InForce holds t' j h') (hle : t ≤ t') : i ≤ j := by
  by_contra hlt
  rw [Nat.not_le] at hlt
  have hbound : i < holds.length := (List.getElem?_eq_some_iff.1 hi.get).1
  have hbegun := hi.begun.resolve_left (by omega)
  have hunended := hj.unended.resolve_left (by omega)
  have hstretch := naturalDuration_mono hholds (Nat.succ_le_of_lt hlt)
  exact not_lt_of_le (le_trans hstretch (le_trans hbegun hle)) hunended

theorem unique (hholds : ∀ h ∈ holds, h.IsTimed) (hi : InForce holds t i h)
    (hj : InForce holds t j h') (ht : t.isNaN = false) : i = j ∧ h = h' := by
  obtain rfl := (hi.mono hholds hj (le_refl ht)).antisymm (hj.mono hholds hi (le_refl ht))
  exact ⟨rfl, Option.some_inj.1 (hi.get.symm.trans hj.get)⟩

theorem concat (hi : InForce holds t i h) (hlt : t < (sequence holds).naturalDuration) (h' : Hold) :
    InForce (holds ++ [h']) t i h := by
  have hbound : i < holds.length := (List.getElem?_eq_some_iff.1 hi.get).1
  refine ⟨by rw [List.getElem?_append_left hbound, hi.get], ?_, .inr ?_⟩
  · rw [List.take_append_of_le_length hbound.le]
    exact hi.begun
  · rw [List.take_append_of_le_length hbound]
    rcases hi.unended with hlast | hend
    · rwa [Nat.succ_eq_add_one, hlast, List.take_length]
    · exact hend

/-- A hold of no length is in force as the last one, or as the first one before time zero. -/
theorem of_zero (hi : InForce holds t i h) (hholds : ∀ h ∈ holds, h.IsTimed)
    (hzero : (h.duration == 0) = true) : i + 1 = holds.length ∨ i = 0 ∧ t < 0 := by
  refine hi.unended.imp_right fun hend => ?_
  have hnum := isNaN_naturalDuration fun h hh => hholds h (List.mem_of_mem_take (i := i + 1) hh)
  have hsum : (sequence (holds.take (i + 1))).naturalDuration =
      (sequence (holds.take i)).naturalDuration + h.duration := by
    rw [List.take_add_one, hi.get]
    exact elapsedAfter_append _ _ [h]
  obtain ⟨hd, -, hrank⟩ := (beq_iff _ _).1 hzero
  have hnone : h.duration ≤ 0 := (le_iff _ _).2 ⟨hd, isNaN_zero, hrank.le⟩
  rw [hsum] at hend hnum
  have hlt := lt_of_lt_of_le hend (add_le hnone hnum)
  rcases hi.begun with rfl | hbegun
  · exact ⟨rfl, lt_of_lt_of_le hlt (by decide : Scalar.zero true ≤ 0)⟩
  · exact absurd hlt (not_lt_of_le hbegun)

end InForce

theorem exists_inForce (hne : holds ≠ []) (hholds : ∀ h ∈ holds, h.IsTimed)
    (ht : t.isNaN = false) :
    ∃ i h, InForce holds t i h ∧ (sequence holds).voltageAt t = h.voltage := by
  induction holds using List.reverseRecOn with
  | nil => exact absurd rfl hne
  | append_singleton holds h ih =>
    rw [List.forall_mem_append] at hholds
    by_cases hnone : holds = []
    · subst hnone
      exact ⟨0, h, ⟨rfl, .inl rfl, .inl rfl⟩, ite_self _⟩
    · rw [voltageAt_concat hnone hholds.1]
      by_cases hlt : t < (sequence holds).naturalDuration
      · obtain ⟨i, k, hi, hv⟩ := ih hnone hholds.1
        exact ⟨i, k, hi.concat hlt h, by rw [if_pos hlt, hv]⟩
      · have hpast := (not_lt_iff ht (isNaN_naturalDuration hholds.1)).1 hlt
        have hlength : (holds ++ [h]).length = holds.length + 1 := List.length_append
        refine ⟨holds.length, h, ⟨List.getElem?_concat_length, .inr ?_, .inl hlength.symm⟩,
          if_neg hlt⟩
        rwa [List.take_left]

/-- A hold that takes no time before one that does. -/
def idleStart : List Hold := [⟨48, 0⟩, ⟨45, 1⟩]

theorem isTimed_idleStart : ∀ h ∈ idleStart, h.IsTimed := by
  rw [idleStart]
  simp only [List.forall_mem_cons]
  exact ⟨⟨by decide, by decide⟩, ⟨by decide, by decide⟩, fun h hh => absurd hh List.not_mem_nil⟩

/-- **Sequences compose.** The natural duration of a sequence of timed holds is a number. With one
more hold, of any length, the sequence is what it was before that time, and from then on it has the
voltage of the new hold. So at every time that is a number exactly one hold is in force, and the
curve has its voltage. The hold in force at a later time is no earlier one. A hold of no length is
in force at most as the last one, or as the first one before time zero. -/
theorem holds_compose {holds : List Hold} (hne : holds ≠ []) (hholds : ∀ h ∈ holds, h.IsTimed) :
    (sequence holds).naturalDuration.isNaN = false ∧
    (∀ (h : Hold) (t : Float),
      (t < (sequence holds).naturalDuration →
        (sequence (holds ++ [h])).voltageAt t = (sequence holds).voltageAt t) ∧
      ((sequence holds).naturalDuration ≤ t → (sequence (holds ++ [h])).voltageAt t = h.voltage)) ∧
    (∀ t : Float, t.isNaN = false → ∃ i h, InForce holds t i h ∧
      (sequence holds).voltageAt t = h.voltage ∧
      ∀ j h', InForce holds t j h' → j = i ∧ h' = h) ∧
    (∀ t t' i j h h', t ≤ t' → InForce holds t i h → InForce holds t' j h' → i ≤ j) ∧
    (∀ t i h, InForce holds t i h → (h.duration == 0) = true →
      i + 1 = holds.length ∨ i = 0 ∧ t < 0) := by
  refine ⟨isNaN_naturalDuration hholds, fun h t => ?_, fun t ht => ?_, ?_, ?_⟩
  · rw [voltageAt_concat hne hholds]
    exact ⟨fun hlt => if_pos hlt, fun hpast => if_neg (not_lt_of_le hpast)⟩
  · obtain ⟨i, h, hi, hv⟩ := exists_inForce hne hholds ht
    exact ⟨i, h, hi, hv, fun _ _ hj => hj.unique hholds hi ht⟩
  · exact fun _ _ _ _ _ _ hle hi hj => hi.mono hholds hj hle
  · exact fun _ _ _ hi hzero => hi.of_zero hholds hzero

theorem holds_compose_idle :
    idleStart ≠ [] ∧ (∀ h ∈ idleStart, h.IsTimed) ∧
    (sequence (idleStart ++ [⟨47, 2⟩])).voltageAt 0.5 = (sequence idleStart).voltageAt 0.5 ∧
    (sequence (idleStart ++ [⟨47, 2⟩])).voltageAt 1 = 47 ∧
    (∃ i h, InForce idleStart 0 i h ∧ (sequence idleStart).voltageAt 0 = h.voltage) ∧
    (∀ j h, InForce idleStart 2 j h → 1 ≤ j) ∧
    ¬ InForce idleStart 0.5 0 ⟨48, 0⟩ := by
  have hne : idleStart ≠ [] := List.cons_ne_nil _ _
  obtain ⟨-, hconcat, hforce, hmono, hzero⟩ := holds_compose hne isTimed_idleStart
  obtain ⟨i, h, hi, hv, -⟩ := hforce 0 (by decide)
  have hsecond : InForce idleStart 0.5 1 ⟨45, 1⟩ := ⟨rfl, .inr (by decide), .inl rfl⟩
  refine ⟨hne, isTimed_idleStart, (hconcat ⟨47, 2⟩ 0.5).1 (by decide),
    (hconcat ⟨47, 2⟩ 1).2 (by decide), ⟨i, h, hi, hv⟩,
    fun j k hj => hmono 0.5 2 1 j _ k (by decide) hsecond hj, fun hshown => ?_⟩
  exact absurd (hzero 0.5 0 ⟨48, 0⟩ hshown (by decide)) (by decide)

/-- The first hold shows before time zero even if it has no length. -/
theorem zero_hold_shows :
    ¬ ∀ (holds : List Hold) (t : Float) (i : Nat) (h : Hold), (∀ x ∈ holds, x.IsTimed) →
      t.isNaN = false → InForce holds t i h → (sequence holds).voltageAt t = h.voltage →
      (h.duration == 0) = true → i + 1 = holds.length := by
  intro hnever
  have hlast := hnever idleStart (-1) 0 ⟨48, 0⟩ isTimed_idleStart (by decide)
    ⟨rfl, .inl rfl, .inr (by decide)⟩ (by decide) (by decide)
  exact absurd hlast (by decide)

end Profile
end BusRegen
