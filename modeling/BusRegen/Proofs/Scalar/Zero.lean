import BusRegen.Proofs.Scalar.Arithmetic
import BusRegen.Proofs.Scalar.Order
/-!
# Zeros in sums and products

A zero takes part in products and quotients as a zero, with some sign, if the other part is finite.
In a sum it makes no difference, unless the other part is the negative zero; and no sum is the
negative zero that does not begin with it (`add_ne_negative_zero`). So a sum that is built up from
zero can pass over all zeros.
-/
namespace BusRegen

open Float.Model (UnpackedFloat)
open Float.Model.UnpackedFloat

namespace Scalar

theorem kind_zero (n : Bool) : kind (zero n) = .finite ⟨n, 0, -1074⟩ := by cases n <;> decide

theorem zero_false : zero false = 0 := eq_of_kind_eq (by decide)

theorem unpack_zero (n : Bool) : (zero n).toModel.unpack = .zero (signOf n) := by
  rw [unpack_eq, kind_zero, ScalarKind.form_zero rfl]

theorem ofForm_zero (n : Bool) : ofForm (.zero (signOf n)) = zero n := by
  refine eq_of_kind_eq ?_
  rw [kind_zero, ← ScalarKind.form_zero (d := ⟨n, 0, -1074⟩) rfl]
  exact kind_ofForm ⟨by norm_num, le_rfl, by norm_num, .inr rfl⟩

theorem ofForm_unpack (x : Float) : ofForm x.toModel.unpack = x := by
  refine eq_of_kind_eq ?_
  rw [unpack_eq, kind_ofForm (kind_canonical x)]

/-- A finite scalar is a zero or has digits. -/
theorem finite_cases {x : Float} (h : x.isFinite = true) :
    (∃ n, x = zero n) ∨ ∃ d, kind x = .finite d ∧ 0 < d.mantissa := by
  obtain ⟨d, hd⟩ := (isFinite_iff x).1 h
  rcases Nat.eq_zero_or_pos d.mantissa with h0 | hpos
  · left
    refine ⟨d.negative, eq_of_kind_eq ?_⟩
    have he : d.exponent = -1074 := by
      have := (canonical_of_kind hd).full
      omega
    rw [hd, kind_zero, ← h0, ← he]
  · exact .inr ⟨d, hd, hpos⟩

theorem zero_mul_of_isFinite (n : Bool) {x : Float} (h : x.isFinite = true) :
    ∃ n', zero n * x = zero n' := by
  have hmul : zero n * x =
      ofForm (UnpackedFloat.mul .binary64 (.zero (signOf n)) x.toModel.unpack) := by
    rw [← unpack_zero]
    rfl
  rcases finite_cases h with ⟨n', rfl⟩ | ⟨d, hd, hpos⟩
  · refine ⟨n ^^ n', ?_⟩
    rw [hmul, unpack_zero, ← ofForm_zero, ← signOf_mul]
    rfl
  · refine ⟨n ^^ d.negative, ?_⟩
    rw [hmul, unpack_finite hd hpos, ← ofForm_zero, ← signOf_mul]
    rfl

theorem zero_div_of_kind (n : Bool) {x : Float} {d : Dyadic} (hd : kind x = .finite d)
    (hpos : 0 < d.mantissa) : ∃ n', zero n / x = zero n' := by
  refine ⟨n ^^ d.negative, ?_⟩
  change ofForm (UnpackedFloat.div .binary64 (zero n).toModel.unpack x.toModel.unpack) = _
  rw [unpack_zero, unpack_finite hd hpos, ← ofForm_zero, ← signOf_div]
  rfl

/-! ## Sums -/

/-- A form with a zero added to it. -/
theorem add_form_zero {u : UnpackedFloat} (hu : u ≠ .zero .negative) (s : Sign) :
    UnpackedFloat.add .binary64 u (.zero s) = u ∧ UnpackedFloat.add .binary64 (.zero s) u = u := by
  cases u with
  | zero s' =>
    cases s' with
    | negative => exact absurd rfl hu
    | positive => cases s <;> exact ⟨rfl, rfl⟩
  | notANumber | infinity | finite => exact ⟨rfl, rfl⟩

theorem unpack_ne_negative_zero {x : Float} (hx : x ≠ zero true) :
    x.toModel.unpack ≠ .zero .negative := by
  intro h
  refine hx ?_
  rw [← ofForm_unpack x, h]
  exact ofForm_zero true

theorem add_zero_eq {x : Float} (hx : x ≠ zero true) (n : Bool) : x + zero n = x := by
  change ofForm (UnpackedFloat.add .binary64 x.toModel.unpack (zero n).toModel.unpack) = _
  rw [unpack_zero, (add_form_zero (unpack_ne_negative_zero hx) _).1, ofForm_unpack]

theorem zero_add_eq {x : Float} (hx : x ≠ zero true) (n : Bool) : zero n + x = x := by
  change ofForm (UnpackedFloat.add .binary64 (zero n).toModel.unpack x.toModel.unpack) = _
  rw [unpack_zero, (add_form_zero (unpack_ne_negative_zero hx) _).2, ofForm_unpack]

theorem isFinite_ofForm {u : UnpackedFloat} (h : u.isFinite = false) :
    (ofForm u).isFinite = false := by
  cases u with
  | infinity s => cases s <;> decide
  | notANumber => decide
  | zero s | finite s m e hm => cases h

theorem isFinite_add_form (u v : UnpackedFloat) (h : u.isFinite = false ∨ v.isFinite = false) :
    (UnpackedFloat.add .binary64 u v).isFinite = false := by
  cases u with
  | notANumber => rfl
  | infinity s =>
    cases v with
    | infinity s' =>
      change (if (s == s') = true then UnpackedFloat.infinity s else .notANumber).isFinite = false
      split <;> rfl
    | notANumber | zero _ | finite => rfl
  | zero s | finite s m e hm =>
    cases v with
    | notANumber | infinity s' => rfl
    | zero s' | finite s' m' e' hm' => rcases h with h | h <;> cases h

/-- The parts of a finite sum are finite. -/
theorem isFinite_of_add {x y : Float} (h : (x + y).isFinite = true) :
    x.isFinite = true ∧ y.isFinite = true := by
  by_contra hc
  have hxy : x.toModel.unpack.isFinite = false ∨ y.toModel.unpack.isFinite = false := by
    rwa [← Bool.not_eq_true, ← Bool.not_eq_true, ← not_and_or]
  have hf := isFinite_ofForm (isFinite_add_form _ _ hxy)
  exact Bool.false_ne_true (hf.symm.trans h)

theorem nearest_ne_zero {x : ℚ} (hx : leastUnit ≤ x) (n n' : Bool) :
    nearest n x ≠ .finite ⟨n', 0, -1074⟩ := by
  have hm := rounded_pos hx n
  unfold nearest
  split
  · intro h
    cases h
  · intro h
    rw [ScalarKind.finite.inj h] at hm
    exact absurd hm (lt_irrefl 0)

theorem ne_zero_of_digits {x : Float} {d : Dyadic} (hd : kind x = .finite d)
    (hpos : 0 < d.mantissa) (n : Bool) : x ≠ zero n := by
  rintro rfl
  rw [kind_zero] at hd
  cases hd
  exact lt_irrefl 0 hpos

/-- Only a sum that begins with the negative zero can be the negative zero: where digits cancel
each other the zero is positive, and no sum of digits is rounded to zero. -/
theorem add_ne_negative_zero {x : Float} (hx : x ≠ zero true) (y : Float) : x + y ≠ zero true := by
  intro h
  obtain ⟨hfx, hfy⟩ := isFinite_of_add (x := x) (y := y) (by rw [h]; decide)
  rcases finite_cases hfy with ⟨n', rfl⟩ | ⟨d', hky, hpos'⟩
  · rw [add_zero_eq hx] at h
    exact hx h
  · rcases finite_cases hfx with ⟨n, rfl⟩ | ⟨d, hkx, hpos⟩
    · have hy := ne_zero_of_digits hky hpos' true
      rw [zero_add_eq hy] at h
      exact hy h
    · have hadd := kind_add hkx hky hpos hpos'
      rw [h, kind_zero] at hadd
      split at hadd
      · cases hadd
      · next hne =>
        have hle := Dyadic.le_abs_add (canonical_of_kind hkx) (canonical_of_kind hky) hne
        exact nearest_ne_zero hle _ _ hadd.symm

/-! ## Absolute values -/

theorem abs_neg_of_pos {x : Float} (h : 0 < x) : (-x).abs = x := by
  obtain ⟨-, hnum, hrank⟩ := (lt_iff 0 x).1 h
  rw [rank_zero] at hrank
  rw [isNaN_eq_false_iff] at hnum
  have hform : (-x).toModel.unpack.abs = (kind x).form := by
    have hc := kind_canonical x
    rw [unpack_eq, kind_neg]
    unfold rank at hrank
    generalize kind x = k at hnum hrank hc
    cases k with
    | nan => exact absurd rfl hnum
    | infinite n =>
      cases n with
      | true => exact absurd hrank (by decide)
      | false => rfl
    | finite d =>
      obtain ⟨h0, -, -⟩ := fields_bounds hc
      simp only [ScalarKind.rank, Dyadic.rank] at hrank
      cases hn : d.negative with
      | true =>
        rw [hn, signed_true] at hrank
        omega
      | false =>
        simp only [ScalarKind.neg, ScalarKind.form, hn]
        split <;> rfl
  change ofForm (-x).toModel.unpack.abs = x
  rw [hform, ← unpack_eq, ofForm_unpack]

theorem abs_zero : (0 : Float).abs = 0 := eq_of_kind_eq (by decide)

theorem abs_eq (x : Float) : x.abs = x ∨ x.abs = -x := by
  have hform (u : UnpackedFloat) : u.abs = u ∨ u.abs = u.neg := by
    cases u with
    | notANumber => exact .inl rfl
    | infinity s | zero s | finite s m e hm =>
      cases s with
      | negative => exact .inr rfl
      | positive => exact .inl rfl
  rcases hform x.toModel.unpack with h | h
  · left
    change ofForm x.toModel.unpack.abs = x
    rw [h, ofForm_unpack]
  · right
    change ofForm x.toModel.unpack.abs = ofForm x.toModel.unpack.neg
    rw [h]

theorem abs_le_of_mem {l x : Float} (hl : -l ≤ x) (hu : x ≤ l) : x.abs ≤ l := by
  rcases abs_eq x with h | h <;> rw [h]
  · exact hu
  · rw [le_iff, isNaN_neg, rank_neg] at hl ⊢
    exact ⟨hl.2.1, hl.1, by omega⟩

end Scalar
end BusRegen
