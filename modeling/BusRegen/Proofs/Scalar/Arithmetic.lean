import BusRegen.Proofs.Scalar.Rounding
import BusRegen.Proofs.Scalar.Order
/-!
# Arithmetic of scalars

Where both operands have digits, a product, a quotient and a sum are the exact result for their
values, rounded (`kind_mul`, `kind_div`, `kind_add`). What is a scalar already is not changed by
rounding (`Dyadic.Canonical.nearest_magnitude`), and natural numbers of at most 53 digits are
scalars (`hasValue_ofNat`); longer ones are rounded, too (`kind_ofNat`), and so are decimals
(`kind_ofScientific`). So operations on different scalars give the same scalar if the exact results
are the same.
-/
namespace BusRegen

open Float.Model (UnpackedFloat Format totalExponent)
open Float.Model.UnpackedFloat

namespace Dyadic

def magnitude (d : Dyadic) : ℚ := d.mantissa * 2 ^ d.exponent

def value (d : Dyadic) : ℚ := if d.negative then -d.magnitude else d.magnitude

theorem magnitude_pos {d : Dyadic} (h : 0 < d.mantissa) : 0 < d.magnitude := by
  unfold magnitude
  positivity

theorem magnitude_eq_fraction (d : Dyadic) :
    d.magnitude = (d.fraction.1 : ℚ) / d.fraction.2 := by
  unfold magnitude fraction
  split
  · next he =>
    obtain ⟨k, hk⟩ := Int.eq_ofNat_of_zero_le he
    simp [hk]
  · next he =>
    obtain ⟨k, hk⟩ : ∃ k : Nat, d.exponent = -k := ⟨(-d.exponent).toNat, by omega⟩
    simp [hk, div_eq_mul_inv]

/-- A canonical value has the unit of its magnitude. -/
theorem Canonical.unitExponent_magnitude {d : Dyadic} (h : d.Canonical) (hm : 0 < d.mantissa) :
    unitExponent d.magnitude = d.exponent := by
  obtain ⟨hlt, hge, -, hfull⟩ := h
  have hx := magnitude_pos hm
  have hlog : Int.log 2 d.magnitude < 53 + d.exponent := by
    refine (Int.lt_zpow_iff_log_lt (by norm_num) hx).1 ?_
    rw [Nat.cast_ofNat, zpow_add₀ two_ne_zero, magnitude]
    gcongr
    exact_mod_cast hlt
  rcases hfull with hfull | hfull
  · have hle : 52 + d.exponent ≤ Int.log 2 d.magnitude := by
      refine (Int.zpow_le_iff_le_log (by norm_num) hx).1 ?_
      rw [Nat.cast_ofNat, zpow_add₀ two_ne_zero, magnitude]
      gcongr
      exact_mod_cast hfull
    unfold unitExponent
    omega
  · unfold unitExponent
    omega

/-- What is a scalar already stays as it is. -/
theorem Canonical.nearest_magnitude {d : Dyadic} (h : d.Canonical) (hm : 0 < d.mantissa) :
    nearest d.negative d.magnitude = .finite d := by
  have hu := h.unitExponent_magnitude hm
  have hr : rounded d.negative d.magnitude = d := by
    have hdiv : d.magnitude / 2 ^ d.exponent = d.mantissa := by
      rw [magnitude, mul_div_assoc, div_self (by positivity), mul_one]
    unfold rounded
    rw [hu, hdiv, nearestEven_natCast]
    exact if_neg (Nat.ne_of_lt h.mantissa_lt)
  rw [nearest, hr, if_neg (not_lt.2 h.exponent_le)]

/-- A canonical value is a whole number of the least units. -/
theorem Canonical.value_eq {d : Dyadic} (h : d.Canonical) :
    ∃ k : Int, d.value = k * leastUnit := by
  have hm : d.magnitude = (d.mantissa * 2 ^ (d.exponent + 1074).toNat : Nat) * leastUnit := by
    have he : ((d.exponent + 1074).toNat : Int) = d.exponent + 1074 := by
      have := h.exponent_ge
      omega
    rw [magnitude, leastUnit, Nat.cast_mul, Nat.cast_pow, Nat.cast_ofNat, ← zpow_natCast, he,
      mul_assoc, ← zpow_add₀ two_ne_zero, add_neg_cancel_right]
  unfold value
  rw [hm]
  split
  · exact ⟨-(d.mantissa * 2 ^ (d.exponent + 1074).toNat : Nat), by push_cast; ring⟩
  · exact ⟨(d.mantissa * 2 ^ (d.exponent + 1074).toNat : Nat), by push_cast; ring⟩

/-- A sum of canonical values is zero or not below the least unit. -/
theorem le_abs_add {d d' : Dyadic} (h : d.Canonical) (h' : d'.Canonical)
    (h0 : d.value + d'.value ≠ 0) : leastUnit ≤ |d.value + d'.value| := by
  obtain ⟨k, hk⟩ := h.value_eq
  obtain ⟨k', hk'⟩ := h'.value_eq
  have hsum : d.value + d'.value = (k + k' : Int) * leastUnit := by
    rw [hk, hk', Int.cast_add, add_mul]
  have hne : k + k' ≠ 0 := by
    intro h
    rw [hsum, h, Int.cast_zero, zero_mul] at h0
    exact h0 rfl
  have hone : (1 : ℚ) ≤ |((k + k' : Int) : ℚ)| := by exact_mod_cast Int.one_le_abs hne
  rw [hsum, abs_mul, abs_of_pos leastUnit_pos]
  exact le_mul_of_one_le_left leastUnit_pos.le hone

end Dyadic

namespace Scalar

theorem signOf_mul (a b : Bool) : signOf a * signOf b = signOf (a ^^ b) := by
  cases a <;> cases b <;> rfl

theorem signOf_div (a b : Bool) : signOf a / signOf b = signOf (a ^^ b) := by
  cases a <;> cases b <;> rfl

theorem le_unitExponent {x : ℚ} {e : Int} (hx : 0 < x)
    (h : e ≤ -1074 ∨ (2 : ℚ) ^ (52 + e) ≤ x) : e ≤ unitExponent x := by
  unfold unitExponent
  rcases h with h | h
  · omega
  · have hlog := (Int.zpow_le_iff_le_log (b := 2) (by norm_num) hx).1 (by exact_mod_cast h)
    omega

theorem canonical_of_kind {x : Float} {d : Dyadic} (h : kind x = .finite d) : d.Canonical := by
  have hc := kind_canonical x
  rwa [h] at hc

section
variable {x y : Float} {d d' : Dyadic}

theorem unpack_finite (hx : kind x = .finite d) (hd : 0 < d.mantissa) :
    x.toModel.unpack = .finite (signOf d.negative) d.mantissa d.exponent hd := by
  rw [unpack_eq, hx, ScalarKind.form_finite hd]

/-- The product of digits, rounded; it must have enough of them itself. -/
theorem kind_mulForm (hd : 0 < d.mantissa) (hd' : 0 < d'.mantissa)
    (hunit : d.exponent + d'.exponent ≤ -1074 ∨ 2 ^ 52 ≤ d.mantissa * d'.mantissa) :
    kind (ofForm (UnpackedFloat.mul .binary64
      (.finite (signOf d.negative) d.mantissa d.exponent hd)
      (.finite (signOf d'.negative) d'.mantissa d'.exponent hd'))) =
      nearest (d.negative ^^ d'.negative) (d.magnitude * d'.magnitude) := by
  rw [UnpackedFloat.mul, signOf_mul]
  have hpos := mul_pos (Dyadic.magnitude_pos hd) (Dyadic.magnitude_pos hd')
  have heq : d.magnitude * d'.magnitude =
      (d.mantissa * d'.mantissa : Nat) * 2 ^ (d.exponent + d'.exponent) := by
    rw [Dyadic.magnitude, Dyadic.magnitude, zpow_add₀ two_ne_zero]
    push_cast
    ring
  refine kind_round _ (describes_exact _) hpos heq (le_unitExponent hpos ?_)
  refine hunit.imp_right fun hfull => ?_
  rw [heq, zpow_add₀ two_ne_zero]
  gcongr
  exact_mod_cast hfull

theorem kind_mul (hx : kind x = .finite d) (hy : kind y = .finite d') (hd : 0 < d.mantissa)
    (hd' : 0 < d'.mantissa) :
    kind (x * y) = nearest (d.negative ^^ d'.negative) (d.magnitude * d'.magnitude) := by
  change kind (ofForm (UnpackedFloat.mul .binary64 x.toModel.unpack y.toModel.unpack)) = _
  rw [unpack_finite hx hd, unpack_finite hy hd']
  refine kind_mulForm hd hd' ?_
  have hc : d.Canonical := canonical_of_kind hx
  have hc' : d'.Canonical := canonical_of_kind hy
  by_cases hsmall : d.exponent = -1074 ∧ d'.exponent = -1074
  · left
    omega
  · right
    rcases (by have := hc.full; have := hc'.full; omega :
      2 ^ 52 ≤ d.mantissa ∨ 2 ^ 52 ≤ d'.mantissa) with h | h
    · exact h.trans (Nat.le_mul_of_pos_right _ hd')
    · exact h.trans (Nat.le_mul_of_pos_left _ hd)

/-- The quotient of digits, rounded. -/
theorem kind_divForm (hd : 0 < d.mantissa) (hd' : 0 < d'.mantissa) :
    kind (ofForm (UnpackedFloat.div .binary64
      (.finite (signOf d.negative) d.mantissa d.exponent hd)
      (.finite (signOf d'.negative) d'.mantissa d'.exponent hd'))) =
      nearest (d.negative ^^ d'.negative) (d.magnitude / d'.magnitude) := by
  rw [UnpackedFloat.div, signOf_div]
  have hpos := div_pos (Dyadic.magnitude_pos hd) (Dyadic.magnitude_pos hd')
  unfold divCore
  rw [targetExponent_binary64]
  dsimp only [totalExponent]
  generalize ht : min (d.exponent - d'.exponent) (max _ (-1074)) = t
  have hk : ((d.exponent - d'.exponent - t).toNat : Int) = d.exponent - d'.exponent - t := by omega
  refine kind_round _ (describes_div _ hd') hpos ?_ (le_unitExponent hpos ?_)
  · rw [Nat.shiftLeft_eq, Nat.cast_mul, Nat.cast_pow, Nat.cast_ofNat, ← zpow_natCast, hk,
      zpow_sub₀ two_ne_zero, zpow_sub₀ two_ne_zero, Dyadic.magnitude, Dyadic.magnitude]
    field_simp
  · by_cases hmin : t ≤ -1074
    · exact .inl hmin
    · right
      have hlow : (2 : ℚ) ^ d.mantissa.log2 ≤ d.mantissa := by
        exact_mod_cast Nat.log2_self_le (Nat.ne_of_gt hd)
      have hhigh : (d'.mantissa : ℚ) ≤ 2 ^ (d'.mantissa.log2 + 1) := by
        exact_mod_cast Nat.le_of_lt Nat.lt_log2_self
      calc (2 : ℚ) ^ (52 + t)
          ≤ 2 ^ ((d.mantissa.log2 : Int) + d.exponent -
              ((d'.mantissa.log2 : Int) + 1 + d'.exponent)) :=
            zpow_le_zpow_right₀ one_le_two (by omega)
        _ = 2 ^ d.mantissa.log2 * 2 ^ d.exponent /
              (2 ^ (d'.mantissa.log2 + 1) * 2 ^ d'.exponent) := by
            rw [zpow_sub₀ two_ne_zero, zpow_add₀ two_ne_zero, zpow_add₀ two_ne_zero, zpow_natCast]
            norm_cast
        _ ≤ d.magnitude / d'.magnitude := by
            unfold Dyadic.magnitude
            gcongr

theorem kind_div (hx : kind x = .finite d) (hy : kind y = .finite d') (hd : 0 < d.mantissa)
    (hd' : 0 < d'.mantissa) :
    kind (x / y) = nearest (d.negative ^^ d'.negative) (d.magnitude / d'.magnitude) := by
  change kind (ofForm (UnpackedFloat.div .binary64 x.toModel.unpack y.toModel.unpack)) = _
  rw [unpack_finite hx hd, unpack_finite hy hd']
  exact kind_divForm hd hd'

/-- Digits with a sign, in a smaller unit. -/
theorem apply_decreaseExponent (d : Dyadic) {t : Int} (ht : t ≤ d.exponent) :
    ((signOf d.negative).apply (decreaseExponent d.mantissa d.exponent t).1 : Int) * (2 : ℚ) ^ t =
      d.value := by
  have hk : ((d.exponent - t).toNat : Int) = d.exponent - t := by omega
  have hm : ((decreaseExponent d.mantissa d.exponent t).1 : ℚ) * 2 ^ t = d.magnitude := by
    change ((d.mantissa <<< (d.exponent - t).toNat : Nat) : ℚ) * 2 ^ t = _
    rw [Nat.shiftLeft_eq, Nat.cast_mul, Nat.cast_pow, Nat.cast_ofNat, ← zpow_natCast, hk,
      zpow_sub₀ two_ne_zero, Dyadic.magnitude]
    field_simp
  unfold Dyadic.value
  cases d.negative with
  | true => rw [if_pos rfl, ← hm]; simp [signOf, Sign.apply]
  | false => rw [if_neg Bool.false_ne_true, ← hm]; simp [signOf, Sign.apply]

theorem kind_add (hx : kind x = .finite d) (hy : kind y = .finite d') (hd : 0 < d.mantissa)
    (hd' : 0 < d'.mantissa) :
    kind (x + y) =
      if d.value + d'.value = 0 then .finite ⟨false, 0, -1074⟩
      else nearest (decide (d.value + d'.value < 0)) |d.value + d'.value| := by
  change kind (ofForm (UnpackedFloat.add .binary64 x.toModel.unpack y.toModel.unpack)) = _
  rw [unpack_finite hx hd, unpack_finite hy hd', UnpackedFloat.add]
  generalize ht : min d.exponent d'.exponent = t
  change kind (ofForm (UnpackedFloat.normalize .binary64
    ((signOf d.negative).apply (decreaseExponent d.mantissa d.exponent t).1 +
      (signOf d'.negative).apply (decreaseExponent d'.mantissa d'.exponent t).1)
    t (signOf false))) = _
  generalize hM : (signOf d.negative).apply (decreaseExponent d.mantissa d.exponent t).1 +
    (signOf d'.negative).apply (decreaseExponent d'.mantissa d'.exponent t).1 = M
  have hsum : d.value + d'.value = M * 2 ^ t := by
    rw [← hM, Int.cast_add, add_mul, apply_decreaseExponent d (by omega),
      apply_decreaseExponent d' (by omega)]
  have ht0 : (0 : ℚ) < 2 ^ t := by positivity
  rw [kind_normalize, hsum]
  have habs : |(M : ℚ) * 2 ^ t| = M.natAbs * 2 ^ t := by
    rw [abs_mul, abs_of_pos ht0, Nat.cast_natAbs, Int.cast_abs]
  have hneg : decide ((M : ℚ) * 2 ^ t < 0) = decide (M < 0) := by
    rw [decide_eq_decide, mul_neg_iff]
    simp [ht0, ht0.le]
  rw [habs, hneg]
  simp [ht0.ne']

end

/-! ## Scalars that are exactly a number -/

/-- The scalar is exactly this positive number. -/
def HasValue (x : Float) (q : ℚ) : Prop :=
  ∃ d : Dyadic, kind x = .finite d ∧ d.negative = false ∧ 0 < d.mantissa ∧ d.magnitude = q

section
variable {x y : Float} {a b : ℚ}

/-- Scalars are products and quotients of numbers only up to rounding, but the same for the same
product or quotient. -/
theorem HasValue.kind_mul (hx : HasValue x a) (hy : HasValue y b) :
    kind (x * y) = nearest false (a * b) := by
  obtain ⟨d, hd, hn, hpos, rfl⟩ := hx
  obtain ⟨d', hd', hn', hpos', rfl⟩ := hy
  rw [Scalar.kind_mul hd hd' hpos hpos', hn, hn']
  rfl

theorem HasValue.kind_div (hx : HasValue x a) (hy : HasValue y b) :
    kind (x / y) = nearest false (a / b) := by
  obtain ⟨d, hd, hn, hpos, rfl⟩ := hx
  obtain ⟨d', hd', hn', hpos', rfl⟩ := hy
  rw [Scalar.kind_div hd hd' hpos hpos', hn, hn']
  rfl

theorem HasValue.kind_eq (hx : HasValue x a) : kind x = nearest false a := by
  obtain ⟨d, hd, hn, hpos, rfl⟩ := hx
  rw [hd, ← hn, (canonical_of_kind hd).nearest_magnitude hpos]

theorem HasValue.of_kind_eq (hy : HasValue y a) (h : kind x = nearest false a) : HasValue x a := by
  rw [← hy.kind_eq] at h
  obtain ⟨d, hd, hrest⟩ := hy
  exact ⟨d, h.trans hd, hrest⟩

/-- A scalar whose fields are known. -/
theorem hasValue_of_kind {m : Nat} {e : Int} (h : kind x = .finite ⟨false, m, e⟩) (hm : 0 < m)
    (ha : (m : ℚ) * 2 ^ e = a) : HasValue x a :=
  ⟨_, h, rfl, hm, ha⟩

end

theorem hasValue_one : HasValue 1 1 :=
  hasValue_of_kind (m := 2 ^ 52) (e := -52) (by decide) (by norm_num) (by norm_num)

theorem hasValue_million : HasValue 1e6 (10 ^ 6) :=
  hasValue_of_kind (m := 8589934592000000) (e := -33) (by decide) (by norm_num) (by norm_num)

theorem hasValue_billion : HasValue 1e9 (10 ^ 9) :=
  hasValue_of_kind (m := 8388608000000000) (e := -23) (by decide) (by norm_num) (by norm_num)

/-- A natural number of at most 53 digits can be given as many as a scalar has. -/
theorem exists_dyadic {n : Nat} (h0 : 0 < n) (h : n < 2 ^ 53) :
    ∃ d : Dyadic, d.Canonical ∧ d.negative = false ∧ 0 < d.mantissa ∧ d.magnitude = n := by
  have hlog : n.log2 < 53 := (Nat.log2_lt (Nat.ne_of_gt h0)).2 h
  have hle := Nat.log2_self_le (Nat.ne_of_gt h0)
  have hlt := Nat.lt_log2_self (n := n)
  have hlow : 2 ^ 52 ≤ n * 2 ^ (52 - n.log2) := by
    calc 2 ^ 52 = 2 ^ n.log2 * 2 ^ (52 - n.log2) := by rw [← Nat.pow_add]; congr 1; omega
      _ ≤ n * 2 ^ (52 - n.log2) := Nat.mul_le_mul_right _ hle
  have hhigh : n * 2 ^ (52 - n.log2) < 2 ^ 53 := by
    calc n * 2 ^ (52 - n.log2) < 2 ^ (n.log2 + 1) * 2 ^ (52 - n.log2) :=
          Nat.mul_lt_mul_of_pos_right hlt (Nat.two_pow_pos _)
      _ = 2 ^ 53 := by rw [← Nat.pow_add]; congr 1; omega
  refine ⟨⟨false, n * 2 ^ (52 - n.log2), -(52 - n.log2 : Nat)⟩,
    ⟨hhigh, by simp only; omega, by simp only; omega, .inl hlow⟩, rfl,
    Nat.lt_of_lt_of_le (Nat.two_pow_pos 52) hlow, ?_⟩
  rw [Dyadic.magnitude, Nat.cast_mul, Nat.cast_pow, Nat.cast_ofNat, zpow_neg, zpow_natCast]
  field_simp

/-- A number is converted by way of a 64-bit word and a power of ten. -/
theorem ofNat_eq {n : Nat} (h : n < 2 ^ 53) : Float.ofNat n = n.toUInt64.toFloat * 1 := by
  have h' : n < 2 ^ 53 ∧ 0 ≤ 22 := ⟨h, by decide⟩
  change Float.ofScientific n false 0 = _
  unfold Float.ofScientific
  rw [dif_pos h']
  rfl

theorem kind_toFloat {w : UInt64} (h : 0 < w.toNat) : kind w.toFloat = nearest false w.toNat := by
  change kind (ofForm (UnpackedFloat.normalize .binary64 (w.toNat : Int) 0 (signOf false))) = _
  rw [kind_normalize, if_neg (by omega), decide_eq_false (by omega), Int.natAbs_natCast, zpow_zero,
    mul_one]

theorem hasValue_toFloat {n : Nat} (h0 : 0 < n) (h : n < 2 ^ 53) :
    HasValue n.toUInt64.toFloat n := by
  obtain ⟨d, hc, hneg, hpos, hmag⟩ := exists_dyadic h0 h
  have hw : n.toUInt64.toNat = n := UInt64.toNat_ofNat_of_lt' (h.trans (by decide))
  refine ⟨d, ?_, hneg, hpos, hmag⟩
  rw [kind_toFloat (by omega), hw, ← hmag, ← hneg]
  exact hc.nearest_magnitude hpos

/-- A natural number of at most 53 digits is a scalar. -/
theorem hasValue_ofNat {n : Nat} (h0 : 0 < n) (h : n < 2 ^ 53) : HasValue (Float.ofNat n) n := by
  have hword := hasValue_toFloat h0 h
  refine hword.of_kind_eq ?_
  rw [ofNat_eq h, hword.kind_mul hasValue_one, mul_one]

/-- Whether a scalar is exactly this positive natural number. -/
def isNatural (x : Float) (n : Nat) : Bool :=
  match kind x with
  | .finite d => !d.negative && decide (0 < d.mantissa) && d.fraction.1 == n * d.fraction.2
  | _ => false

theorem hasValue_of_isNatural {x : Float} {n : Nat} (h : isNatural x n = true) : HasValue x n := by
  unfold isNatural at h
  split at h
  · next d hk =>
    simp only [Bool.and_eq_true, Bool.not_eq_true', decide_eq_true_eq, beq_iff_eq] at h
    obtain ⟨⟨hneg, hpos⟩, hn⟩ := h
    refine ⟨d, hk, hneg, hpos, ?_⟩
    have hden : (d.fraction.2 : ℚ) ≠ 0 := by exact_mod_cast d.fraction_den_pos.ne'
    rw [Dyadic.magnitude_eq_fraction, hn, Nat.cast_mul, mul_div_cancel_right₀ _ hden]
  · exact absurd h Bool.false_ne_true

/-- The powers of ten that are scalars. -/
theorem hasValue_powerOfTen (e : Fin 23) :
    HasValue (Float.exactlyRepresentablePowersOfTen[e.val]) (10 ^ e.val : Nat) :=
  hasValue_of_isNatural <| by
    revert e
    decide +kernel

theorem magnitude_integer (n : Nat) : (⟨false, n, 0⟩ : Dyadic).magnitude = n := by
  rw [Dyadic.magnitude, zpow_zero, mul_one]

/-- The form of a decimal is the product or quotient of forms with all their digits, rounded. -/
theorem kind_ofScientificForm {m : Nat} (hm : 0 < m) {e : Int} (hlow : -(2048 + (m.log2 : Int)) ≤ e)
    (hhigh : e ≤ 2048) :
    kind (ofForm (UnpackedFloat.ofScientific .binary64 m e)) = nearest false (m * 10 ^ e) := by
  have hbig : ¬ e > 2 ^ Format.binary64.exponentBits := not_lt.2 hhigh
  have hsmall : ¬ e < -(2 ^ Format.binary64.exponentBits + m.log2) := not_lt.2 hlow
  unfold UnpackedFloat.ofScientific
  rw [dif_neg hm.ne', if_neg hbig, if_neg hsmall]
  split
  · next he =>
    have hten : 0 < 10 ^ e.toNat := Nat.pow_pos (by decide)
    have hm' : 0 < m <<< 53 := by rw [Nat.shiftLeft_eq]; positivity
    have hfull : 2 ^ 52 ≤ m <<< 53 * 10 ^ e.toNat := by
      rw [Nat.shiftLeft_eq]
      calc 2 ^ 52 ≤ 1 * 2 ^ 53 * 1 := by norm_num
        _ ≤ m * 2 ^ 53 * 10 ^ e.toNat := by gcongr <;> omega
    refine (@kind_mulForm ⟨false, m <<< 53, -53⟩ ⟨false, 10 ^ e.toNat, 0⟩ hm' hten
      (.inr hfull)).trans ?_
    have hdigits : (⟨false, m <<< 53, -53⟩ : Dyadic).magnitude = m := by
      rw [Dyadic.magnitude, Nat.shiftLeft_eq]
      push_cast
      rw [mul_assoc]
      norm_num
    rw [hdigits, magnitude_integer, Nat.cast_pow, Nat.cast_ofNat, ← zpow_natCast,
      Int.toNat_of_nonneg he]
    rfl
  · next he =>
    have hten : 0 < 10 ^ (-e).toNat := Nat.pow_pos (by decide)
    refine (@kind_divForm ⟨false, m, 0⟩ ⟨false, 10 ^ (-e).toNat, 0⟩ hm hten).trans ?_
    rw [magnitude_integer, magnitude_integer, Nat.cast_pow, Nat.cast_ofNat, ← zpow_natCast,
      Int.toNat_of_nonneg (by omega), zpow_neg, div_inv_eq_mul]
    rfl

/-- A decimal is converted to the scalar that is nearest to it. A short one is a product or quotient
of two scalars. -/
theorem kind_ofScientific {m : Nat} (hm : 0 < m) {e : Int} (hlow : -(2048 + (m.log2 : Int)) ≤ e)
    (hhigh : e ≤ 2048) :
    kind (Float.ofScientific m (e < 0) e.natAbs) = nearest false (m * 10 ^ e) := by
  unfold Float.ofScientific
  split
  · next hshort =>
    have hword := hasValue_toFloat hm hshort.1
    have hpower := hasValue_powerOfTen ⟨e.natAbs, by omega⟩
    by_cases he : e < 0
    · have hdiv := hword.kind_div hpower
      rw [Nat.cast_pow, Nat.cast_ofNat, ← zpow_natCast, Int.natCast_natAbs, abs_of_neg he, zpow_neg,
        div_inv_eq_mul] at hdiv
      simp only [he, decide_true, if_true]
      exact hdiv
    · have hmul := hword.kind_mul hpower
      rw [Nat.cast_pow, Nat.cast_ofNat, ← zpow_natCast, Int.natCast_natAbs,
        abs_of_nonneg (not_lt.1 he)] at hmul
      simp only [he, decide_false, Bool.false_eq_true, if_false]
      exact hmul
  · have hform := kind_ofScientificForm hm hlow hhigh
    by_cases he : e < 0
    · have hnegative : Int.negOfNat e.natAbs = e := by
        rw [Int.negOfNat_eq, Int.ofNat_eq_natCast]
        omega
      simp only [he, decide_true, if_true, hnegative]
      exact hform
    · have hpositive : Int.ofNat e.natAbs = e := by
        rw [Int.ofNat_eq_natCast]
        omega
      simp only [he, decide_false, Bool.false_eq_true, if_false, hpositive]
      exact hform

/-- Every natural number is converted to the scalar that is nearest to it. -/
theorem kind_ofNat {n : Nat} (h0 : 0 < n) : kind (Float.ofNat n) = nearest false n := by
  have h := kind_ofScientific (e := 0) h0 (by omega) (by decide)
  rwa [zpow_zero, mul_one] at h

end Scalar
end BusRegen
