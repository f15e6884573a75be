import BusRegen.Proofs.Profile.Ramp
/-!
# How curves end

The natural duration of a curve is computed apart from the boundaries that `voltageAt` compares a
time with. From the natural duration on all of them are past, and the voltage is the final one
(`Profile.final_from_naturalDuration`).

The end of a dip is before its natural duration, as two seconds more lead nowhere down. Holds end one
after the other, and no sum of durations goes back; the two sums of a sequence differ only in the
sign of the zero that they start from, which no comparison sees (`Profile.elapsedAfter_mono`).

A ramp comes up to its baseline exactly at the end of its natural duration, so with rounding it may
still be a little below. `Ramp.Formula` is the formula of a ramp over any numbers: with scalars it is
the ramp (`Ramp.voltageAt_eq`), and over an ordered field nothing is rounded.
-/
namespace BusRegen

open Scalar

variable {t : Float}

/-! ## Dips -/

namespace Dip

variable {d : Dip}

theorem stop_le (h : (Profile.step d).naturalDuration ≤ t) : d.stop ≤ t :=
  le_trans (le_add (by decide) (isNaN_of_le h).1) h

theorem voltageAt_of_stop_le (h : d.stop ≤ t) : d.voltageAt t = d.baseline := by
  have hpast : ¬ t < d.stop := not_lt_of_le h
  exact if_neg fun hlow => hpast hlow.2

end Dip

/-! ## Holds -/

/-- The hold has a length: none, or a finite one. -/
structure Hold.IsTimed (h : Hold) : Prop where
  finite : h.duration.isFinite = true
  nonneg : 0 ≤ h.duration

namespace Profile

/-- The time after some holds that begin when `elapsed` has passed. -/
def elapsedAfter (elapsed : Float) (holds : List Hold) : Float :=
  holds.foldl (fun sum h => sum + h.duration) elapsed

theorem naturalDuration_sequence (holds : List Hold) :
    (sequence holds).naturalDuration = elapsedAfter (Scalar.zero true) holds := rfl

variable {elapsed elapsed' : Float} {holds : List Hold}

theorem le_elapsedAfter (hholds : ∀ h ∈ holds, h.IsTimed) (he : elapsed.isNaN = false) :
    elapsed ≤ elapsedAfter elapsed holds := by
  induction holds generalizing elapsed with
  | nil => exact le_refl he
  | cons h holds ih =>
    rw [List.forall_mem_cons] at hholds
    have hnum := isNaN_add_right he hholds.1.finite
    exact le_trans (le_add hholds.1.nonneg hnum) (ih hholds.2 hnum)

theorem elapsedAfter_mono (hholds : ∀ h ∈ holds, h.IsTimed) (he : elapsed ≤ elapsed') :
    elapsedAfter elapsed holds ≤ elapsedAfter elapsed' holds := by
  induction holds generalizing elapsed elapsed' with
  | nil => exact he
  | cons h holds ih =>
    rw [List.forall_mem_cons] at hholds
    have hfin := hholds.1.finite
    exact ih hholds.2 (add_mono he (le_refl (isNaN_of_isFinite hfin))
      (isNaN_add_right (isNaN_of_le he).1 hfin) (isNaN_add_right (isNaN_of_le he).2 hfin))

/-- After all holds the last one stays. -/
theorem heldAt_of_elapsedAfter_le (hholds : ∀ h ∈ holds, h.IsTimed) (he : elapsed.isNaN = false)
    (ht : elapsedAfter elapsed holds ≤ t) (last : Float) :
    heldAt t elapsed last holds = (holds.getLast?.map (·.voltage)).getD last := by
  induction holds generalizing elapsed last with
  | nil => rfl
  | cons h holds ih =>
    rw [List.forall_mem_cons] at hholds
    have hnum := isNaN_add_right he hholds.1.finite
    have hpast : elapsed + h.duration ≤ t := le_trans (le_elapsedAfter hholds.2 hnum) ht
    rw [heldAt, if_neg (not_lt_of_le hpast), ih hholds.2 hnum ht,
      List.getLast?_cons, Option.map_some, Option.getD_some, Option.getD_map]

theorem voltageAt_sequence (hholds : ∀ h ∈ holds, h.IsTimed) {last : Hold}
    (hlast : holds.getLast? = some last) (ht : (sequence holds).naturalDuration ≤ t) :
    (sequence holds).voltageAt t = last.voltage := by
  have hsum : elapsedAfter 0 holds ≤ elapsedAfter (Scalar.zero true) holds :=
    elapsedAfter_mono hholds (by decide)
  rw [naturalDuration_sequence] at ht
  change heldAt t 0 Scalar.nan holds = _
  rw [heldAt_of_elapsedAfter_le hholds isNaN_zero (le_trans hsum ht), hlast]
  rfl

end Profile

/-! ## Ramps -/

namespace Ramp

/-- What a ramp is made of, as numbers of some type. -/
structure Formula (α : Type) where
  baseline : α
  floor : α
  start : α
  fallRate : α
  hold : α
  riseRate : α

/-- The fields of a ramp as other numbers. -/
def formula {α : Type} (number : Float → α) (r : Ramp) : Formula α where
  baseline := number r.baseline
  floor := number r.floor
  start := number r.start
  fallRate := number r.fallRate
  hold := number r.hold
  riseRate := number r.riseRate

namespace Formula

section
variable {α : Type} [OfNat α 0] [Add α] [Sub α] [Mul α] [Div α] [LT α] [DecidableLT α]
  (larger smaller : α → α → α) (r : Formula α)

def depth : α := larger (r.baseline - r.floor) 0

def fallEnd : α := r.start + r.depth larger / r.fallRate

def holdEnd : α := r.fallEnd larger + r.hold

def voltageAt (t : α) : α :=
  if t < r.start then r.baseline
  else if t < r.fallEnd larger then larger (r.baseline - (t - r.start) * r.fallRate) r.floor
  else if t < r.holdEnd larger then r.floor
  else smaller (r.floor + (t - r.holdEnd larger) * r.riseRate) r.baseline

def naturalDuration : α :=
  r.start + r.depth larger / r.fallRate + r.hold + r.depth larger / r.riseRate

end

section
variable {α : Type} [Field α] [LinearOrder α] [IsStrictOrderedRing α] {r : Formula α}

theorem start_le_fallEnd (hfall : 0 < r.fallRate) : r.start ≤ r.fallEnd max :=
  le_add_of_nonneg_right (div_nonneg (le_max_right _ _) hfall.le)

theorem fallEnd_le_holdEnd (hhold : 0 ≤ r.hold) : r.fallEnd max ≤ r.holdEnd max :=
  le_add_of_nonneg_right hhold

/-- The rise takes as long as the depth needs, and then the baseline is the smaller. -/
theorem voltageAt_of_naturalDuration_le (hfall : 0 < r.fallRate) (hhold : 0 ≤ r.hold)
    (hrise : 0 < r.riseRate) {t : α} (ht : r.naturalDuration max ≤ t) :
    r.voltageAt max min t = r.baseline := by
  have hdepth : 0 ≤ r.depth max := le_max_right _ _
  have hend : r.holdEnd max ≤ t :=
    (le_add_of_nonneg_right (div_nonneg hdepth hrise.le)).trans ht
  have hfallEnd := (fallEnd_le_holdEnd hhold).trans hend
  have hstart := (start_le_fallEnd hfall).trans hfallEnd
  have hrisen : r.depth max ≤ (t - r.holdEnd max) * r.riseRate := by
    rw [← div_le_iff₀ hrise, le_sub_iff_add_le']
    exact ht
  have hbelow : r.baseline - r.floor ≤ r.depth max := le_max_left _ _
  rw [voltageAt, if_neg hstart.not_gt, if_neg hfallEnd.not_gt, if_neg hend.not_gt, min_eq_right]
  linarith

end
end Formula

/-- With scalars the formula is the ramp. -/
theorem voltageAt_eq (r : Ramp) (t : Float) :
    r.voltageAt t = (r.formula id).voltageAt larger smaller t := rfl

theorem naturalDuration_eq (r : Ramp) : r.naturalDuration = (r.formula id).naturalDuration larger :=
  rfl

/-- The ramp in exact arithmetic. -/
def exact (r : Ramp) : Formula ℚ := r.formula value

theorem Proper.exact_of_naturalDuration_le {r : Ramp} (h : r.Proper) {t : ℚ}
    (ht : r.exact.naturalDuration max ≤ t) : r.exact.voltageAt max min t = r.exact.baseline := by
  have hfall : 0 < r.exact.fallRate := leastUnit_pos.trans_le h.hasValue_fall.leastUnit_le
  have hrise : 0 < r.exact.riseRate := leastUnit_pos.trans_le h.hasValue_rise.leastUnit_le
  have hhold : 0 ≤ r.exact.hold := value_nonneg h.hold_nonneg
  exact Formula.voltageAt_of_naturalDuration_le hfall hhold hrise ht

end Ramp

namespace Profile

/-- **From its natural duration on a curve shows nothing new.** A dip is at its baseline, whatever
its numbers are, and a sequence of holds of finite length is at the voltage of the last one. A ramp
with finite fields, positive rates and no negative hold is at its baseline if the formula that gives
the voltages of the ramp is read in rational numbers. -/
theorem final_from_naturalDuration :
    (∀ (d : Dip) (t : Float), (step d).naturalDuration ≤ t → (step d).voltageAt t = d.baseline) ∧
    (∀ (holds : List Hold) (last : Hold), holds.getLast? = some last →
      (∀ h ∈ holds, h.IsTimed) → ∀ t : Float, (sequence holds).naturalDuration ≤ t →
        (sequence holds).voltageAt t = last.voltage) ∧
    ∀ r : Ramp,
      (∀ t, (ramp r).voltageAt t = (r.formula id).voltageAt larger smaller t) ∧
      (ramp r).naturalDuration = (r.formula id).naturalDuration larger ∧
      (r.Proper → ∀ t : ℚ, r.exact.naturalDuration max ≤ t →
        r.exact.voltageAt max min t = value r.baseline) :=
  ⟨fun _ _ ht => Dip.voltageAt_of_stop_le (Dip.stop_le ht),
    fun _ _ hlast hholds _ ht => voltageAt_sequence hholds hlast ht,
    fun r => ⟨r.voltageAt_eq, r.naturalDuration_eq, fun h _ ht => h.exact_of_naturalDuration_le ht⟩⟩

/-- A dip that ends before it begins, holds of which the last takes no time, and a ramp whose floor
is above its baseline. -/
theorem final_from_naturalDuration_odd :
    (step ⟨48, 46, 8, 2⟩).voltageAt 4 = 48 ∧
    (sequence [⟨48, 0.5⟩, ⟨45, 0.25⟩, ⟨47, 0⟩]).voltageAt 0.75 = 47 ∧
    (⟨45, 48, 1, 1, 2, 1⟩ : Ramp).exact.voltageAt max min 3 = value 45 := by
  obtain ⟨hstep, hsequence, hramp⟩ := final_from_naturalDuration
  have hholds : ∀ h ∈ [(⟨48, 0.5⟩ : Hold), ⟨45, 0.25⟩, ⟨47, 0⟩], h.IsTimed := by
    simp only [List.forall_mem_cons]
    exact ⟨⟨by decide, by decide⟩, ⟨by decide, by decide⟩, ⟨by decide, by decide⟩,
      fun h hh => absurd hh List.not_mem_nil⟩
  refine ⟨hstep ⟨48, 46, 8, 2⟩ 4 (by decide),
    hsequence _ ⟨47, 0⟩ rfl hholds 0.75 (by decide +kernel),
    (hramp ⟨45, 48, 1, 1, 2, 1⟩).2.2 (by constructor <;> decide) 3 ?_⟩
  decide +kernel

end Profile
end BusRegen
