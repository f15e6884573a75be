import BusRegen.Proofs.Scalar.Whole
import BusRegen.Trace.Summary
/-!
# The bounds of a summary

A summary is a fold over the points of a trace. Three of its sums do not see the order of the points:
the number of points, the number of active ones among them (`Tally.active_foldl`), and the largest
current, which starts at zero and passes over what is no number (`IsPeak.foldl`). Both times are such
a number times the tick period, and a product with one factor fixed is monotone also where it is
rounded, so the active time is a part of the total time (`Summary.activeTime_le`). The sums of
voltages and of energies are rounded from point to point, and nothing of this holds of them.

The bounds need the total time to be finite. As a machine word counts the points and another the
microseconds of a tick period it always is (`Trace.isFinite_timeOf`).
-/
namespace BusRegen

open Scalar

/-! ## The largest of zero and some numbers -/

/-- `m` is the largest of zero and of the numbers in `xs`. -/
structure IsPeak (xs : List Float) (m : Float) : Prop where
  nonneg : 0 ≤ m
  upper : ∀ x ∈ xs, x.isNaN = false → x ≤ m
  attained : m = 0 ∨ m ∈ xs

namespace IsPeak

variable {xs ys : List Float} {m m' x : Float}

theorem nil : IsPeak [] 0 :=
  ⟨by decide, fun _ hx => absurd hx List.not_mem_nil, .inl rfl⟩

/-- One more scalar, which counts if it is a number. -/
theorem concat (h : IsPeak xs m) : IsPeak (xs ++ [x]) (larger m x) := by
  have hm := (isNaN_of_le h.nonneg).2
  cases hx : x.isNaN with
  | true =>
    have hkept : larger m x = m := if_pos hx
    rw [hkept]
    refine ⟨h.nonneg, fun y hy hynum => ?_, h.attained.imp_right (List.mem_append_left _)⟩
    rcases List.mem_append.1 hy with hy | hy
    · exact h.upper y hy hynum
    · rw [List.mem_singleton.1 hy, hx] at hynum
      cases hynum
  | false =>
    have hold : m ≤ larger m x := le_larger_left hx hm
    refine ⟨le_trans h.nonneg hold, fun y hy hynum => ?_, ?_⟩
    · rcases List.mem_append.1 hy with hy | hy
      · exact le_trans (h.upper y hy hynum) hold
      · rw [List.mem_singleton.1 hy]
        exact le_larger hx m
    · rw [larger_eq hx]
      split
      · exact h.attained.imp_right (List.mem_append_left _)
      · exact .inr (List.mem_append_right _ (List.mem_singleton_self x))

theorem foldl (h : IsPeak xs m) (ys : List Float) : IsPeak (xs ++ ys) (ys.foldl larger m) := by
  induction ys generalizing xs m with
  | nil => rwa [List.append_nil]
  | cons y ys ih =>
    rw [← List.singleton_append, ← List.append_assoc]
    exact ih h.concat

theorem le_of_subset (h : IsPeak xs m) (h' : IsPeak ys m') (hsub : xs ⊆ ys) : m ≤ m' := by
  rcases h.attained with rfl | hm
  · exact h'.nonneg
  · exact h'.upper m (hsub hm) (isNaN_of_le h.nonneg).2

/-- Scalars in another order have the same peak, but for the sign of a zero. -/
theorem beq_of_perm (h : IsPeak xs m) (h' : IsPeak ys m') (hperm : xs.Perm ys) :
    (m == m') = true := by
  have hle := (le_iff m m').1 (h.le_of_subset h' hperm.subset)
  have hge := (le_iff m' m).1 (h'.le_of_subset h hperm.symm.subset)
  exact (beq_iff m m').2 ⟨hle.1, hle.2.1, hle.2.2.antisymm hge.2.2⟩

end IsPeak

/-! ## The sums -/

namespace Tally

variable {dt : Float}

theorem active_add (s : Tally) (p : TracePoint) :
    (add dt s p).active = s.active + if p.active then 1 else 0 := by
  unfold add
  split <;> rfl

theorem active_foldl (ps : List TracePoint) (s : Tally) :
    (ps.foldl (add dt) s).active = s.active + ps.countP (·.active) := by
  induction ps generalizing s with
  | nil => rfl
  | cons p ps ih =>
    rw [List.foldl_cons, ih, active_add, List.countP_cons]
    omega

theorem maxCurrent_foldl (dt : Float) (ps : List TracePoint) (s : Tally) :
    (ps.foldl (add dt) s).maxCurrent = (ps.map (·.current)).foldl larger s.maxCurrent := by
  induction ps generalizing s with
  | nil => rfl
  | cons p ps ih => exact ih _

end Tally

/-! ## Times -/

namespace Scalar

variable {n : Nat} {a b d : Float}

theorem isFinite_ofNat (h : n < 2 ^ 64) : (Float.ofNat n).isFinite = true :=
  isFinite_of_nonneg_of_le (ofNat_nonneg n) (ofNat_mono h.le) (by decide +kernel)

theorem mul_le_mul_right_of_isFinite (hd : 0 ≤ d) (hfd : d.isFinite = true)
    (hb : b.isFinite = true) (ha : 0 ≤ a) (hab : a ≤ b) : a * d ≤ b * d := by
  have hfa := isFinite_of_nonneg_of_le ha hab hb
  obtain ⟨hnum, hrank⟩ := rank_mul hfa hfd
  obtain ⟨hnum', hrank'⟩ := rank_mul hb hfd
  rw [le_iff, hrank, hrank']
  refine ⟨hnum, hnum', landing_mono ?_⟩
  exact mul_le_mul_of_nonneg_right ((le_iff_value hfa hb).1 hab) (value_nonneg hd)

theorem div_self_of_pos (hb : b.isFinite = true) (hpos : 0 < b) : b / b = 1 := by
  have hv := hasValue_value hb hpos
  have hvalue : value b ≠ 0 := (leastUnit_pos.trans_le hv.leastUnit_le).ne'
  refine eq_of_kind_eq ?_
  rw [hv.kind_div hv, div_self hvalue, hasValue_one.kind_eq]

/-- A part in percent. -/
theorem percent_mem (hb : b.isFinite = true) (hpos : 0 < b) (ha : 0 ≤ a) (hab : a ≤ b) :
    0 ≤ a / b * 100 ∧ a / b * 100 ≤ 100 := by
  have hhundred : HasValue 100 100 := hasValue_of_isNatural (by decide +kernel)
  have hv := hasValue_value hb hpos
  have hpart : a / b ≤ 1 := div_self_of_pos hb hpos ▸ div_mono hv hab
  have hone : (1 : Float) * 100 ≤ 100 := by decide +kernel
  exact ⟨zero_le_mul (div_nonneg ha hv) hhundred, le_trans (mul_mono_right hhundred hpart) hone⟩

end Scalar

namespace Trace

variable {n : Nat} {t : Trace}

theorem dt_nonneg (t : Trace) : 0 ≤ t.dt := Scalar.div_nonneg (ofNat_nonneg _) hasValue_million

/-- The longest tick period that there is. -/
theorem dt_le (t : Trace) : t.dt ≤ Float.ofNat (2 ^ 64) / 1e6 :=
  div_mono hasValue_million (ofNat_mono t.metadata.periodMicros.toNat_lt.le)

theorem isFinite_dt (t : Trace) : t.dt.isFinite = true :=
  isFinite_of_nonneg_of_le t.dt_nonneg t.dt_le (by decide +kernel)

/-- The time of some ticks. -/
def timeOf (t : Trace) (n : Nat) : Float := Float.ofNat n * t.dt

theorem timeOf_nonneg (h : n < 2 ^ 64) : 0 ≤ t.timeOf n :=
  Scalar.mul_nonneg (ofNat_nonneg n) t.dt_nonneg (rank_mul (isFinite_ofNat h) t.isFinite_dt).1

theorem timeOf_mono {m : Nat} (hmn : m ≤ n) (h : n < 2 ^ 64) : t.timeOf m ≤ t.timeOf n :=
  mul_le_mul_right_of_isFinite t.dt_nonneg t.isFinite_dt (isFinite_ofNat h) (ofNat_nonneg m)
    (ofNat_mono hmn)

theorem isFinite_timeOf (h : n < 2 ^ 64) : (t.timeOf n).isFinite = true := by
  have hmost : (Float.ofNat (2 ^ 64)).isFinite = true := by decide +kernel
  have hlongest : (Float.ofNat (2 ^ 64) / 1e6).isFinite = true := by decide +kernel
  have hcount : t.timeOf n ≤ t.timeOf (2 ^ 64) :=
    mul_le_mul_right_of_isFinite t.dt_nonneg t.isFinite_dt hmost (ofNat_nonneg n) (ofNat_mono h.le)
  have hperiod : t.timeOf (2 ^ 64) ≤ Float.ofNat (2 ^ 64) * (Float.ofNat (2 ^ 64) / 1e6) :=
    mul_mono_left (ofNat_nonneg _) hmost t.dt_le (rank_mul hmost t.isFinite_dt).1
      (rank_mul hmost hlongest).1
  exact isFinite_of_nonneg_of_le (timeOf_nonneg h) (le_trans hcount hperiod) (by decide +kernel)

end Trace

/-! ## Summaries -/

namespace Summary

open Trace

variable {t : Trace}

theorem totalTime_ofTrace (t : Trace) : (ofTrace t).totalTime = t.timeOf t.points.length := rfl

theorem active_ofTrace (t : Trace) :
    (t.points.foldl (Tally.add t.dt) {}).active = t.points.countP (·.active) :=
  (Tally.active_foldl t.points {}).trans (Nat.zero_add _)

theorem activeTime_ofTrace (t : Trace) :
    (ofTrace t).activeTime = t.timeOf (t.points.countP (·.active)) :=
  congrArg t.timeOf (active_ofTrace t)

theorem isSome_averages (t : Trace) :
    (ofTrace t).averages.isSome = true ↔ ∃ p ∈ t.points, p.active = true := by
  have hsome : (ofTrace t).averages.isSome = true ↔
      (t.points.foldl (Tally.add t.dt) {}).active ≠ 0 := by
    simp only [ofTrace]
    split <;> simp_all
  rw [hsome, active_ofTrace, Nat.ne_zero_iff_zero_lt, List.countP_pos_iff]

theorem isPeak_maxCurrent (t : Trace) :
    IsPeak (t.points.map (·.current)) (ofTrace t).maxCurrent := by
  have hpeak := IsPeak.nil.foldl (t.points.map (·.current))
  rwa [List.nil_append, ← Tally.maxCurrent_foldl t.dt t.points {}] at hpeak

theorem activeTime_le (h : t.points.length < 2 ^ 64) :
    (ofTrace t).activeTime ≤ (ofTrace t).totalTime := by
  rw [activeTime_ofTrace, totalTime_ofTrace]
  exact timeOf_mono List.countP_le_length h

theorem activeTime_nonneg (h : t.points.length < 2 ^ 64) : 0 ≤ (ofTrace t).activeTime := by
  rw [activeTime_ofTrace]
  exact timeOf_nonneg (List.countP_le_length.trans_lt h)

theorem activeRatio_mem (h : t.points.length < 2 ^ 64) :
    0 ≤ (ofTrace t).activeRatio ∧ (ofTrace t).activeRatio ≤ 100 := by
  rw [activeRatio]
  split
  · decide
  · next hpos =>
    have hfin : (ofTrace t).totalTime.isFinite = true := isFinite_timeOf h
    have hlt : 0 < (ofTrace t).totalTime :=
      (not_le_iff (isNaN_of_isFinite hfin) isNaN_zero).1 hpos
    exact percent_mem hfin hlt (activeTime_nonneg h) (activeTime_le h)

/-- **The bounds of a summary**, for as many points as a machine word counts and any tick period. The
active time is a part of the total time, the ratio is a percentage, there are averages where there are
active points, and the largest current is that of zero and the currents that are numbers. None of the
counts and times depends on the order of the points; the largest current is always the same number,
though a zero may come with either sign. -/
theorem ofTrace_bounds (t : Trace) (h : t.points.length < 2 ^ 64) :
    (0 ≤ (ofTrace t).activeTime ∧ (ofTrace t).activeTime ≤ (ofTrace t).totalTime) ∧
    ((ofTrace t).activeRatio.isNaN = false ∧
      0 ≤ (ofTrace t).activeRatio ∧ (ofTrace t).activeRatio ≤ 100) ∧
    ((ofTrace t).averages.isSome = true ↔ ∃ p ∈ t.points, p.active = true) ∧
    (0 ≤ (ofTrace t).maxCurrent ∧
      (∀ p ∈ t.points, p.current.isNaN = false → p.current ≤ (ofTrace t).maxCurrent) ∧
      ((ofTrace t).maxCurrent = 0 ∨ ∃ p ∈ t.points, (ofTrace t).maxCurrent = p.current)) ∧
    ∀ t' : Trace, t'.metadata = t.metadata → t'.points.Perm t.points →
      (ofTrace t').samples = (ofTrace t).samples ∧
      (ofTrace t').totalTime = (ofTrace t).totalTime ∧
      (ofTrace t').activeTime = (ofTrace t).activeTime ∧
      ((ofTrace t').maxCurrent == (ofTrace t).maxCurrent) = true := by
  have hratio := activeRatio_mem h
  have hpeak := isPeak_maxCurrent t
  refine ⟨⟨activeTime_nonneg h, activeTime_le h⟩, ⟨(isNaN_of_le hratio.1).2, hratio⟩,
    isSome_averages t, ⟨hpeak.nonneg, fun p hp => hpeak.upper _ (List.mem_map_of_mem hp), ?_⟩, ?_⟩
  · refine hpeak.attained.imp_right fun hmem => ?_
    obtain ⟨p, hp, heq⟩ := List.mem_map.1 hmem
    exact ⟨p, hp, heq.symm⟩
  · intro t' hmeta hperm
    have htime (n : Nat) : t'.timeOf n = t.timeOf n := by rw [timeOf, timeOf, dt, dt, hmeta]
    refine ⟨hperm.length_eq, ?_, ?_,
      (isPeak_maxCurrent t').beq_of_perm hpeak (hperm.map (·.current))⟩
    · rw [totalTime_ofTrace, totalTime_ofTrace, htime, hperm.length_eq]
    · rw [activeTime_ofTrace, activeTime_ofTrace, htime, hperm.countP_eq]

def drivenPoint : TracePoint := ⟨2, 46, 3, .regulating, true⟩

/-- A trace of the longest period. A current in it is no number, and one is a zero with a sign. -/
def unevenTrace : Trace where
  version := Trace.currentVersion
  metadata := ⟨"", 0xffffffffffffffff, 48, 47.5, 45⟩
  points := [⟨0, 48, Scalar.nan, .idle, false⟩, ⟨1, 46, -0, .regulating, true⟩, drivenPoint]

theorem ofTrace_bounds_uneven :
    unevenTrace.points.length < 2 ^ 64 ∧ (ofTrace unevenTrace).activeRatio ≤ 100 ∧
    (ofTrace unevenTrace).averages.isSome = true ∧
    drivenPoint.current ≤ (ofTrace unevenTrace).maxCurrent := by
  obtain ⟨-, hratio, haverages, hcurrent, -⟩ := ofTrace_bounds unevenTrace (by decide)
  have hlast : drivenPoint ∈ unevenTrace.points := by simp [unevenTrace]
  exact ⟨by decide, hratio.2.2, haverages.2 ⟨_, hlast, rfl⟩, hcurrent.2.1 _ hlast (by decide)⟩

end Summary
end BusRegen
