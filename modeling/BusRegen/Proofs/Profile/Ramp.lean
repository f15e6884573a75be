import BusRegen.Profile
import BusRegen.Proofs.Scalar.Signs
/-!
# A ramp is a valley

The boundaries of a ramp are computed from its fields, and a rate of zero or an infinite field can
make a boundary infinite or no number. Still the voltage is between the floor and the baseline at
every time, whatever the start, the rate of the fall and the hold are: a comparison with a NaN
leads to a later branch, and `larger` and `smaller` replace a NaN by the bound.

With finite fields and rates above zero the voltage does not rise before the end of the hold and
does not fall after the end of the fall. The end of the hold may still overflow. Then the rise
begins at the infinite time, where the time since its begin is no number, and the voltage there is
the baseline again. This is the only place where the shape is not that of a valley.
-/
namespace BusRegen
namespace Ramp

open Scalar

variable {r : Ramp} {t t' : Float}

/-! ## The boundaries -/

theorem depth_nonneg (r : Ramp) : 0 ≤ r.depth := le_larger isNaN_zero _

/-- Where the fall has an end after its begin, the rate of the fall is not negative. -/
theorem fallRate_nonneg (h : r.start < r.fallEnd) (hrate : r.fallRate.isNaN = false) :
    0 ≤ r.fallRate := by
  by_contra hneg
  obtain ⟨-, hend, -⟩ := (lt_iff _ _).1 h
  have hquotient := (isNaN_of_add hend).2
  have hback := div_nonpos r.depth_nonneg ((not_le_iff isNaN_zero hrate).1 hneg) hquotient
  exact not_lt_of_le (add_le hback hend) h

/-! ## The band -/

theorem le_falling (hfloor : r.floor ≤ r.baseline) (hstart : ¬ t < r.start)
    (hend : t < r.fallEnd) :
    larger (r.baseline - (t - r.start) * r.fallRate) r.floor ≤ r.baseline := by
  refine larger_le (isNaN_of_le hfloor).1 (fun hnum => ?_) hfloor
  have hfall := (isNaN_of_sub hnum).2
  obtain ⟨hsince, hrate⟩ := isNaN_of_mul hfall
  obtain ⟨ht, hs⟩ := isNaN_of_sub hsince
  have hle := (not_lt_iff ht hs).1 hstart
  have hpos := fallRate_nonneg (lt_of_le_of_lt hle hend) hrate
  exact sub_le (mul_nonneg (sub_nonneg_of_le hle hsince) hpos hfall) hnum

theorem le_rising (hfloor : r.floor ≤ r.baseline) (hrise : ¬ r.riseRate < 0)
    (hend : ¬ t < r.holdEnd) :
    r.floor ≤ smaller (r.floor + (t - r.holdEnd) * r.riseRate) r.baseline := by
  refine le_smaller (isNaN_of_le hfloor).2 (fun hnum => ?_) hfloor
  have hclimb := (isNaN_of_add hnum).2
  obtain ⟨hsince, hrate⟩ := isNaN_of_mul hclimb
  obtain ⟨ht, he⟩ := isNaN_of_sub hsince
  have hle := (not_lt_iff ht he).1 hend
  have hpos := (not_lt_iff hrate isNaN_zero).1 hrise
  exact le_add (mul_nonneg (sub_nonneg_of_le hle hsince) hpos hclimb) hnum

theorem voltageAt_mem (hfloor : r.floor ≤ r.baseline) (hrise : ¬ r.riseRate < 0) (t : Float) :
    r.floor ≤ r.voltageAt t ∧ r.voltageAt t ≤ r.baseline := by
  obtain ⟨hfl, hbase⟩ := isNaN_of_le hfloor
  unfold voltageAt
  split
  · exact ⟨hfloor, le_refl hbase⟩
  · next hstart =>
    split
    · next hfall => exact ⟨le_larger hfl _, le_falling hfloor hstart hfall⟩
    · split
      · exact ⟨le_refl hfl, hfloor⟩
      · next hhold => exact ⟨le_rising hfloor hrise hhold, smaller_le hbase _⟩

/-! ## The shape -/

theorem voltageAt_falling (hstart : r.start ≤ t) (hfall : t < r.fallEnd) :
    r.voltageAt t = larger (r.baseline - (t - r.start) * r.fallRate) r.floor := by
  obtain ⟨hs, ht⟩ := isNaN_of_le hstart
  rw [voltageAt, if_neg ((not_lt_iff ht hs).2 hstart), if_pos hfall]

/-- A ramp with finite fields that goes down, stays and comes up again. -/
structure Proper (r : Ramp) : Prop where
  baseline : r.baseline.isFinite = true
  floor : r.floor.isFinite = true
  start : r.start.isFinite = true
  fallRate : r.fallRate.isFinite = true
  fall_pos : 0 < r.fallRate
  hold : r.hold.isFinite = true
  hold_nonneg : 0 ≤ r.hold
  riseRate : r.riseRate.isFinite = true
  rise_pos : 0 < r.riseRate

namespace Proper

variable (h : r.Proper)

include h

theorem hasValue_fall : HasValue r.fallRate (value r.fallRate) :=
  hasValue_value h.fallRate h.fall_pos

theorem hasValue_rise : HasValue r.riseRate (value r.riseRate) :=
  hasValue_value h.riseRate h.rise_pos

theorem start_le : r.start ≤ r.fallEnd :=
  self_le_add h.start (div_nonneg r.depth_nonneg h.hasValue_fall)

/-- The hold is finite, so its end is a number even where the end of the fall is infinite. -/
theorem fallEnd_le : r.fallEnd ≤ r.holdEnd :=
  le_add h.hold_nonneg (isNaN_add_right (isNaN_of_le h.start_le).2 h.hold)

theorem start_le_holdEnd : r.start ≤ r.holdEnd := le_trans h.start_le h.fallEnd_le

theorem isNaN_holdEnd : r.holdEnd.isNaN = false := (isNaN_of_le h.fallEnd_le).2

theorem voltageAt_held (hfall : r.fallEnd ≤ t) (hhold : t < r.holdEnd) :
    r.voltageAt t = r.floor := by
  have hstart := le_trans h.start_le hfall
  obtain ⟨hs, ht⟩ := isNaN_of_le hstart
  rw [voltageAt, if_neg ((not_lt_iff ht hs).2 hstart),
    if_neg ((not_lt_iff ht (isNaN_of_le hfall).1).2 hfall), if_pos hhold]

theorem voltageAt_rising (hhold : r.holdEnd ≤ t) :
    r.voltageAt t = smaller (r.floor + (t - r.holdEnd) * r.riseRate) r.baseline := by
  have hfall := le_trans h.fallEnd_le hhold
  have hstart := le_trans h.start_le hfall
  obtain ⟨hs, ht⟩ := isNaN_of_le hstart
  rw [voltageAt, if_neg ((not_lt_iff ht hs).2 hstart),
    if_neg ((not_lt_iff ht (isNaN_of_le hfall).1).2 hfall),
    if_neg ((not_lt_iff ht (isNaN_of_le hhold).1).2 hhold)]

/-- The fall is a fall. -/
theorem falling_le (hle : t ≤ t') :
    larger (r.baseline - (t' - r.start) * r.fallRate) r.floor ≤
      larger (r.baseline - (t - r.start) * r.fallRate) r.floor := by
  have hsince {s : Float} (hs : s.isNaN = false) :
      ((s - r.start) * r.fallRate).isNaN = false :=
    isNaN_mul (isNaN_sub hs h.start) h.hasValue_fall
  have hleft {s : Float} (hs : s.isNaN = false) :
      (r.baseline - (s - r.start) * r.fallRate).isNaN = false := by
    rw [sub_eq_add]
    exact isNaN_add h.baseline ((isNaN_neg _).trans (hsince hs))
  obtain ⟨hnum, hnum'⟩ := isNaN_of_le hle
  have hs := isNaN_of_isFinite h.start
  have hpassed : t - r.start ≤ t' - r.start :=
    sub_mono hle (le_refl hs) (isNaN_sub hnum h.start) (isNaN_sub hnum' h.start)
  exact larger_mono (isNaN_of_isFinite h.floor)
    (sub_mono (le_refl (isNaN_of_isFinite h.baseline)) (mul_mono_right h.hasValue_fall hpassed)
      (hleft hnum') (hleft hnum))

/-- The rise is a rise. -/
theorem rising_le (hend : r.holdEnd.isFinite = true) (hle : t ≤ t') :
    smaller (r.floor + (t - r.holdEnd) * r.riseRate) r.baseline ≤
      smaller (r.floor + (t' - r.holdEnd) * r.riseRate) r.baseline := by
  have hclimb {s : Float} (hs : s.isNaN = false) :
      (r.floor + (s - r.holdEnd) * r.riseRate).isNaN = false :=
    isNaN_add h.floor (isNaN_mul (isNaN_sub hs hend) h.hasValue_rise)
  obtain ⟨hnum, hnum'⟩ := isNaN_of_le hle
  have hpassed : t - r.holdEnd ≤ t' - r.holdEnd :=
    sub_mono hle (le_refl h.isNaN_holdEnd) (isNaN_sub hnum hend) (isNaN_sub hnum' hend)
  exact smaller_mono (isNaN_of_isFinite h.baseline)
    (add_mono (le_refl (isNaN_of_isFinite h.floor)) (mul_mono_right h.hasValue_rise hpassed)
      (hclimb hnum) (hclimb hnum'))

/-- The rise begins at the floor. -/
theorem rising_start (hend : r.holdEnd.isFinite = true) :
    smaller (r.floor + (r.holdEnd - r.holdEnd) * r.riseRate) r.baseline ≤ r.floor := by
  have hnum := isNaN_sub h.isNaN_holdEnd hend
  have hzero : r.holdEnd - r.holdEnd ≤ 0 :=
    (le_iff _ _).2 ⟨hnum, isNaN_zero, (rank_sub_self hnum).trans_le rank_zero.ge⟩
  have hclimb : (r.holdEnd - r.holdEnd) * r.riseRate ≤ 0 := by
    have hmul := mul_mono_right h.hasValue_rise hzero
    rwa [← zero_false, h.hasValue_rise.zero_mul, zero_false] at hmul
  have hsum := isNaN_add h.floor (isNaN_of_le hclimb).1
  exact le_trans (smaller_le_left (isNaN_of_isFinite h.baseline) hsum) (add_le hclimb hsum)

/-- The end of the hold may be infinite, but not infinitely early. -/
theorem holdEnd_cases : r.holdEnd.isFinite = true ∨ r.holdEnd = infinity false := by
  rcases le_cases h.start_le_holdEnd with heq | heq | ⟨-, hfin⟩
  · exact absurd (heq ▸ h.start) (by decide)
  · exact .inr heq
  · exact .inl hfin

/-- At the end of an infinite hold there is no telling how far the rise is. -/
theorem voltageAt_infinity (hend : r.holdEnd = infinity false) :
    r.voltageAt (infinity false) = r.baseline := by
  have hbase := isNaN_of_isFinite h.baseline
  rw [h.voltageAt_rising (hend ▸ le_refl h.isNaN_holdEnd), smaller_eq hbase, if_neg]
  refine fun hlt => absurd ((lt_iff _ _).1 hlt).1 fun hnum => ?_
  have hsince := (isNaN_of_mul (isNaN_of_add hnum).2).1
  rw [hend] at hsince
  exact absurd hsince (by decide)

theorem not_rise_neg : ¬ r.riseRate < 0 :=
  (not_lt_iff (isNaN_of_isFinite h.riseRate) isNaN_zero).2 (le_of_lt h.rise_pos)

/-- From the end of the fall to that of the hold. -/
theorem voltageAt_le_floor (hfall : r.fallEnd ≤ t) (hend : t ≤ r.holdEnd)
    (hfin : t < infinity false) : r.voltageAt t ≤ r.floor := by
  by_cases hhold : t < r.holdEnd
  · rw [h.voltageAt_held hfall hhold]
    exact le_refl (isNaN_of_isFinite h.floor)
  · have hnum := (isNaN_of_le hfall).2
    have hhold := (not_lt_iff hnum h.isNaN_holdEnd).1 hhold
    rcases h.holdEnd_cases with hholdEnd | hinf
    · rw [h.voltageAt_rising hhold]
      exact le_trans (h.rising_le hholdEnd hend) (h.rising_start hholdEnd)
    · exact absurd (hinf ▸ hhold) ((not_le_iff (by decide) hnum).2 hfin)

section
variable (hfloor : r.floor ≤ r.baseline)

include hfloor

/-- Up to the end of the fall. -/
theorem fall_antitone (hle : t ≤ t') (hfall : t' < r.fallEnd) : r.voltageAt t' ≤ r.voltageAt t := by
  have hnum := (isNaN_of_le hle).1
  by_cases hstart : t < r.start
  · rw [show r.voltageAt t = r.baseline from if_pos hstart]
    exact (voltageAt_mem hfloor h.not_rise_neg t').2
  · have hstart := (not_lt_iff hnum (isNaN_of_isFinite h.start)).1 hstart
    rw [voltageAt_falling hstart (lt_of_le_of_lt hle hfall),
      voltageAt_falling (le_trans hstart hle) hfall]
    exact h.falling_le hle

theorem antitone (hle : t ≤ t') (hend : t' ≤ r.holdEnd) (hfin : t' < infinity false) :
    r.voltageAt t' ≤ r.voltageAt t := by
  by_cases hfall : t' < r.fallEnd
  · exact h.fall_antitone hfloor hle hfall
  · have hfall := (not_lt_iff (isNaN_of_le hle).2 (isNaN_of_le h.fallEnd_le).1).1 hfall
    exact le_trans (h.voltageAt_le_floor hfall hend hfin)
      (voltageAt_mem hfloor h.not_rise_neg t).1

theorem monotone (hfall : r.fallEnd ≤ t) (hle : t ≤ t') : r.voltageAt t ≤ r.voltageAt t' := by
  have hband := voltageAt_mem hfloor h.not_rise_neg
  by_cases hhold : t < r.holdEnd
  · rw [h.voltageAt_held hfall hhold]
    exact (hband t').1
  · have hhold := (not_lt_iff (isNaN_of_le hle).1 h.isNaN_holdEnd).1 hhold
    rcases h.holdEnd_cases with hfin | hinf
    · rw [h.voltageAt_rising hhold, h.voltageAt_rising (le_trans hhold hle)]
      exact h.rising_le hfin hle
    -- The only time at an infinite end is the infinite one, so both times are the same.
    · obtain rfl := eq_infinity_of_le (hinf ▸ hhold)
      obtain rfl := eq_infinity_of_le hle
      exact le_refl (isNaN_of_le (hband _).1).2

end
end Proper
end Ramp

/-- **The valley.** The voltage of a ramp with the floor not above the baseline and a rate of the
rise that is not negative is a number from the floor to the baseline at every time. If the fields
are finite, the rates above zero and the hold not negative, then at times below infinity the voltage
does not rise up to the end of the hold, and it does not fall from the end of the fall on. An end of
the hold that is infinite leaves the voltage at the baseline at the infinite time. -/
theorem ramp_valley (r : Ramp) (hfloor : r.floor ≤ r.baseline) (hrise : ¬ r.riseRate < 0) :
    (∀ t, ((Profile.ramp r).voltageAt t).isNaN = false ∧
      r.floor ≤ (Profile.ramp r).voltageAt t ∧ (Profile.ramp r).voltageAt t ≤ r.baseline) ∧
    (r.Proper →
      (∀ t t', t ≤ t' → t' ≤ r.holdEnd → t' < Scalar.infinity false →
        (Profile.ramp r).voltageAt t' ≤ (Profile.ramp r).voltageAt t) ∧
      (∀ t t', r.fallEnd ≤ t → t ≤ t' →
        (Profile.ramp r).voltageAt t ≤ (Profile.ramp r).voltageAt t') ∧
      (r.holdEnd.isFinite = false →
        (Profile.ramp r).voltageAt (Scalar.infinity false) = r.baseline)) := by
  refine ⟨fun t => ?_, fun h => ⟨fun t t' => ?_, fun t t' => ?_, fun hend => ?_⟩⟩
  · have hband := Ramp.voltageAt_mem hfloor hrise t
    exact ⟨(Scalar.isNaN_of_le hband.1).2, hband⟩
  · exact h.antitone hfloor
  · exact h.monotone hfloor
  · rcases h.holdEnd_cases with hfin | hinf
    · rw [hfin] at hend
      cases hend
    · exact h.voltageAt_infinity hinf

/-- A fall so slow that it ends beyond all finite times. -/
def endlessRamp : Ramp := ⟨48.0, 45.0, 0.0, 1e-308, 0.0, 1.0⟩

theorem proper_standardRamp : Profile.standardRamp.Proper := by
  constructor <;> decide

theorem proper_endlessRamp : endlessRamp.Proper := by
  constructor <;> decide +kernel

theorem ramp_valley_standard :
    (45.0 ≤ (Profile.ramp Profile.standardRamp).voltageAt Scalar.nan ∧
      (Profile.ramp Profile.standardRamp).voltageAt Scalar.nan ≤ 48.0) ∧
    (Profile.ramp Profile.standardRamp).voltageAt 9.5 ≤
      (Profile.ramp Profile.standardRamp).voltageAt 2.5 ∧
    (Profile.ramp Profile.standardRamp).voltageAt 9.0 ≤
      (Profile.ramp Profile.standardRamp).voltageAt 12.0 ∧
    (Profile.ramp endlessRamp).voltageAt (Scalar.infinity false) = 48.0 := by
  have hstandard := ramp_valley Profile.standardRamp (by decide) (by decide)
  have hendless := ramp_valley endlessRamp (by decide +kernel) (by decide +kernel)
  obtain ⟨hfall, hrise, -⟩ := hstandard.2 proper_standardRamp
  exact ⟨(hstandard.1 Scalar.nan).2, hfall 2.5 9.5 (by decide) (by decide +kernel) (by decide),
    hrise 9.0 12.0 (by decide +kernel) (by decide),
    (hendless.2 proper_endlessRamp).2.2 (by decide +kernel)⟩

/-- The bound on the times is needed: with the end of the hold at infinity, the voltage at the
infinite time is above that of all times before. -/
theorem ramp_rises_at_infinity :
    ¬ ∀ r : Ramp, r.floor ≤ r.baseline → ¬ r.riseRate < 0 → r.Proper → ∀ t t', t ≤ t' →
      t' ≤ r.holdEnd → (Profile.ramp r).voltageAt t' ≤ (Profile.ramp r).voltageAt t := by
  intro hvalley
  have hle := hvalley endlessRamp (by decide +kernel) (by decide +kernel) proper_endlessRamp
    1.7e308 (Scalar.infinity false) (by decide +kernel) (by decide +kernel)
  exact absurd hle (by decide +kernel)

end BusRegen
