import BusRegen.Proofs.Scalar.Order
import BusRegen.Regulator
/-!
# Settings that a regulator can be built from

`Config.check` is a chain of comparisons, each of which is false when a NaN takes part in it. A
setting that is no finite number is refused before all others, so the later comparisons are between
numbers and a refused `≤` is an accepted `<`. What is left of the check is `Config.Valid`, the facts
that the other proofs use; `check_eq_ok_iff` says that the two are the same.
-/
namespace BusRegen

namespace Parameter

theorem mem_all (p : Parameter) : p ∈ all := by cases p <;> decide

end Parameter

namespace Config

structure Valid (c : Config) : Prop where
  finite : ∀ p, (c.get p).isFinite = true
  minimum_lt : c.minimumVoltage < c.thresholdVoltage
  threshold_lt : c.thresholdVoltage < c.targetVoltage
  maxOutputCurrent_pos : 0 < c.maxOutputCurrent
  integralLimit_nonneg : 0 ≤ c.integralLimit
  deadbandCurrent_nonneg : 0 ≤ c.deadbandCurrent
  tickPeriod_nonzero : c.tickPeriod.isZero = false

/-- A chain of faults finds none if no fault of it does. -/
theorem ite_some_eq_none_iff {α : Type} {p : Prop} [Decidable p] {a : α} {x : Option α} :
    (if p then some a else x) = none ↔ ¬ p ∧ x = none := by
  split <;> simp_all

theorem firstNotFinite?_eq_none_iff (c : Config) :
    c.firstNotFinite? = none ↔ ∀ p, (c.get p).isFinite = true := by
  simp only [firstNotFinite?, List.find?_eq_none, Bool.not_eq_true, Bool.not_eq_false']
  exact ⟨fun h p => h p p.mem_all, fun h p _ => h p⟩

theorem fault?_eq_none_iff (c : Config) : c.fault? = none ↔ c.Valid := by
  unfold fault?
  cases hf : c.firstNotFinite? with
  | some p =>
    have hp : ¬ ∀ p, (c.get p).isFinite = true := by
      rw [← firstNotFinite?_eq_none_iff, hf]
      exact Option.some_ne_none p
    exact ⟨fun h => (Option.some_ne_none _ h).elim, fun h => absurd h.finite hp⟩
  | none =>
    have hfin := (firstNotFinite?_eq_none_iff c).1 hf
    have hnum (p : Parameter) : (c.get p).isNaN = false := Scalar.isNaN_of_isFinite (hfin p)
    have hmax := Scalar.not_le_iff (hnum .maxOutputCurrent) Scalar.isNaN_zero
    have hlimit := Scalar.not_lt_iff (hnum .integralLimit) Scalar.isNaN_zero
    have hdead := Scalar.not_lt_iff (hnum .deadbandCurrent) Scalar.isNaN_zero
    simp only [get] at hmax hlimit hdead
    simp only [ite_some_eq_none_iff, Decidable.not_not, hmax, hlimit, hdead, Bool.not_eq_true]
    constructor
    · rintro ⟨⟨h1, h2⟩, hm, hl, hd, ht, -⟩
      exact ⟨hfin, h1, h2, hm, hl, hd, ht⟩
    · intro h
      exact ⟨⟨h.minimum_lt, h.threshold_lt⟩, h.maxOutputCurrent_pos, h.integralLimit_nonneg,
        h.deadbandCurrent_nonneg, h.tickPeriod_nonzero, trivial⟩

theorem check_eq_ok_iff (c : Config) : c.check = .ok () ↔ c.Valid := by
  rw [← fault?_eq_none_iff, check]
  cases c.fault? with
  | none => simp
  | some e => simp

theorem Valid.period_eq {c : Config} (h : c.Valid) :
    c.period = .ok ⟨c.tickPeriod, h.tickPeriod_nonzero⟩ := by
  simp [period, TickPeriod.ofDuration?, h.tickPeriod_nonzero]

end Config

namespace Regulator

theorem create_eq {c : Config} (h : c.Valid) :
    create c = .ok { config := c, period := ⟨c.tickPeriod, h.tickPeriod_nonzero⟩ } := by
  rw [create, (Config.check_eq_ok_iff c).2 h, h.period_eq]
  rfl

/-- A regulator was built from valid settings, and is one without a past. -/
theorem valid_of_create {c : Config} {r : Regulator} (h : create c = .ok r) :
    ∃ hc : c.Valid, r = { config := c, period := ⟨c.tickPeriod, hc.tickPeriod_nonzero⟩ } := by
  have hc : c.Valid := by
    rw [← Config.check_eq_ok_iff]
    cases hck : c.check with
    | ok u => rfl
    | error e => rw [create, hck] at h; cases h
  rw [create_eq hc] at h
  exact ⟨hc, (Except.ok.inj h).symm⟩

end Regulator
end BusRegen
