import BusRegen.Decimal.Shortest
import BusRegen.Proofs.Scalar.Bounds
/-!
# Reading a shortest decimal back

`toFloat` gives the scalar nearest to the number of a decimal (`kind_toFloat`), so a decimal of the
exact value of a scalar is read as that scalar (`toFloat_exact`). What `search` comes back with has
either been tried or is exact; the decimal that is written for a scalar is therefore read as it
(`toFloat_shortest`), whatever number of digits the search has stopped at.
-/
namespace BusRegen.Decimal

open Scalar

/-! ## The number of a decimal -/

def value (d : Decimal) : ℚ := d.coefficient * 10 ^ d.exponent

/-- A number of so many digits is between two powers of ten. -/
theorem digitCount_bounds {n : Nat} (h : 0 < n) :
    10 ^ (digitCount n - 1) ≤ n ∧ n < 10 ^ digitCount n ∧ 0 < digitCount n := by
  fun_induction digitCount n with
  | case1 n hn => exact ⟨h, hn, Nat.one_pos⟩
  | case2 n hn ih =>
    obtain ⟨hlow, hhigh, hpos⟩ := ih (by omega)
    obtain ⟨k, hk⟩ := Nat.exists_eq_succ_of_ne_zero hpos.ne'
    rw [hk] at hlow hhigh ⊢
    rw [Nat.add_sub_cancel, pow_succ, pow_succ]
    rw [Nat.succ_sub_one] at hlow
    rw [pow_succ] at hhigh
    exact ⟨by rw [← pow_succ]; omega, by omega, by omega⟩

/-- The magnitude of a decimal says between which powers of ten its number is. -/
theorem value_bounds {d : Decimal} (h : 0 < d.coefficient) :
    (10 : ℚ) ^ (digitCount d.coefficient + d.exponent - 1) ≤ d.value ∧
      d.value < 10 ^ (digitCount d.coefficient + d.exponent) := by
  obtain ⟨hlow, hhigh, hpos⟩ := digitCount_bounds h
  have hten : (0 : ℚ) < 10 ^ d.exponent := by positivity
  constructor
  · have hcast : ((digitCount d.coefficient + d.exponent - 1 : Int)) =
        (digitCount d.coefficient - 1 : Nat) + d.exponent := by omega
    rw [hcast, zpow_add₀ (by norm_num), zpow_natCast, value]
    gcongr
    exact_mod_cast hlow
  · rw [zpow_add₀ (by norm_num), zpow_natCast, value]
    gcongr
    exact_mod_cast hhigh

/-! ## Zeros at the end -/

theorem trim_coefficient_pos {c : Nat} (e : Int) (h : 0 < c) : 0 < (trim c e).coefficient := by
  fun_induction trim c e with
  | case1 c e hc ih => exact ih (by omega)
  | case2 c e hc => exact h

theorem value_trim (c : Nat) (e : Int) : (trim c e).value = value ⟨c, e⟩ := by
  fun_induction trim c e with
  | case1 c e hc ih =>
    have hdiv : (c : ℚ) = (c / 10 : Nat) * 10 := by exact_mod_cast (Nat.div_mul_cancel
      (Nat.dvd_of_mod_eq_zero hc.2)).symm
    rw [ih, value, value, hdiv, zpow_add_one₀ (by norm_num)]
    simp only
    ring
  | case2 => rfl

theorem trim_trim (c : Nat) (e : Int) :
    trim (trim c e).coefficient (trim c e).exponent = trim c e := by
  fun_induction trim c e with
  | case1 c e hc ih => exact ih
  | case2 c e hc => rw [trim, dif_neg hc]

theorem toFloat_trim (c : Nat) (e : Int) : (trim c e).toFloat = toFloat ⟨c, e⟩ := by
  unfold toFloat
  rw [trim_trim]

/-! ## The nearest scalar -/

theorem toFloat_zero (e : Int) : toFloat ⟨0, e⟩ = zero false := by
  have htrim : trim 0 e = ⟨0, e⟩ := by
    rw [trim]
    rfl
  unfold toFloat
  rw [htrim]
  exact if_pos (.inl rfl)

theorem digitCount_le_log2 {n : Nat} (h : 0 < n) : digitCount n ≤ n.log2 + 1 := by
  obtain ⟨hlow, -, hpos⟩ := digitCount_bounds h
  have hlog : digitCount n - 1 ≤ n.log2 :=
    (Nat.le_log2 h.ne').2 ((Nat.pow_le_pow_left (by decide) _).trans hlow)
  omega

/-- Within 400 orders of magnitude, which is more than scalars have, a decimal is read as the scalar
nearest to its number. -/
theorem kind_toFloat {d : Decimal} (h : 0 < d.coefficient)
    (hlow : (10 : ℚ) ^ (-400 : Int) ≤ d.value) (hhigh : d.value < 10 ^ (400 : Int)) :
    kind d.toFloat = nearest false d.value := by
  obtain ⟨c, e⟩ := d
  have hpos := trim_coefficient_pos e h
  rw [← value_trim] at hlow hhigh ⊢
  unfold toFloat
  generalize trim c e = d at hpos hlow hhigh ⊢
  obtain ⟨hl, hh⟩ := value_bounds hpos
  have hmin : -400 < digitCount d.coefficient + d.exponent :=
    (zpow_lt_zpow_iff_right₀ (by norm_num)).1 (hlow.trans_lt hh)
  have hmax : digitCount d.coefficient + d.exponent - 1 < 400 :=
    (zpow_lt_zpow_iff_right₀ (by norm_num)).1 (hl.trans_lt hhigh)
  have hcount := digitCount_le_log2 hpos
  have hfirst := (digitCount_bounds hpos).2.2
  simp only
  rw [if_neg (by omega), if_neg (by omega)]
  exact kind_ofScientific hpos (by omega) (by omega)

theorem value_exact (num k : Nat) : (exact num (2 ^ k)).value = (num : ℚ) / 2 ^ k := by
  have hten : (10 : ℚ) ^ k = 5 ^ k * 2 ^ k := by rw [← mul_pow]; norm_num
  rw [exact, value, Nat.log2_two_pow, zpow_neg, zpow_natCast, hten]
  push_cast
  field_simp

/-- The denominator of a scalar is a power of two. -/
theorem exists_den (d : Dyadic) : ∃ k, d.fraction.2 = 2 ^ k := by
  unfold Dyadic.fraction
  split
  · exact ⟨0, rfl⟩
  · exact ⟨_, rfl⟩

theorem value_exact_fraction (d : Dyadic) :
    (exact d.fraction.1 d.fraction.2).value = d.magnitude := by
  obtain ⟨k, hk⟩ := exists_den d
  rw [Dyadic.magnitude_eq_fraction, hk, value_exact, Nat.cast_pow, Nat.cast_ofNat]

section
variable {x : Float} {d : Dyadic}

theorem two_zpow_lt_ten_zpow : (2 : ℚ) ^ (1200 : Int) < 10 ^ (400 : Int) := by
  have height : (2 : ℚ) ^ (1200 : Int) = 8 ^ 400 := by
    rw [show (8 : ℚ) = 2 ^ 3 by norm_num, ← pow_mul]
    rfl
  rw [height]
  exact pow_lt_pow_left₀ (by norm_num) (by norm_num) (by norm_num)

/-- Scalars are well within the orders of magnitude of decimals. -/
theorem magnitude_mem (h : d.Canonical) (hm : 0 < d.mantissa) :
    (10 : ℚ) ^ (-400 : Int) ≤ d.magnitude ∧ d.magnitude < 10 ^ (400 : Int) := by
  obtain ⟨hlt, hge, hle, -⟩ := h
  have hone : (1 : ℚ) ≤ d.mantissa := by exact_mod_cast hm
  have htwo : (0 : ℚ) < 2 ^ d.exponent := by positivity
  unfold Dyadic.magnitude
  constructor
  · calc (10 : ℚ) ^ (-400 : Int) ≤ 2 ^ (-1200 : Int) := by
          rw [zpow_neg, zpow_neg]
          exact inv_anti₀ (by positivity) two_zpow_lt_ten_zpow.le
      _ ≤ 1 * 2 ^ d.exponent := by
          rw [one_mul]
          exact zpow_le_zpow_right₀ one_le_two (by omega)
      _ ≤ d.mantissa * 2 ^ d.exponent := by gcongr
  · calc (d.mantissa : ℚ) * 2 ^ d.exponent ≤ 2 ^ (53 : Int) * 2 ^ d.exponent := by
          gcongr
          exact_mod_cast hlt.le
      _ = 2 ^ (53 + d.exponent) := (zpow_add₀ two_ne_zero _ _).symm
      _ ≤ 2 ^ (1200 : Int) := zpow_le_zpow_right₀ one_le_two (by omega)
      _ < 10 ^ (400 : Int) := two_zpow_lt_ten_zpow

variable (hd : kind x = .finite d) (hm : 0 < d.mantissa)
include hd hm

theorem toFloat_exact : (exact d.fraction.1 d.fraction.2).toFloat = x.abs := by
  have hc := canonical_of_kind hd
  obtain ⟨hlow, hhigh⟩ := magnitude_mem hc hm
  have hnum : 0 < d.fraction.1 := by
    unfold Dyadic.fraction
    split <;> simp [hm]
  have hcoefficient : 0 < (exact d.fraction.1 d.fraction.2).coefficient :=
    Nat.mul_pos hnum (Nat.pow_pos (by decide))
  rw [← value_exact_fraction] at hlow hhigh
  refine eq_of_kind_eq ?_
  rw [kind_toFloat hcoefficient hlow hhigh, value_exact_fraction, kind_abs hd]
  have habs := canonical_of_kind (kind_abs hd)
  exact habs.nearest_magnitude hm

/-- A decimal that has been tried is read as the scalar, and so is the exact one. -/
theorem toFloat_search (tie : Tie) (top : Int) (tries count : Nat) :
    (search tie x.abs d.fraction.1 d.fraction.2 top tries count).toFloat = x.abs := by
  have hread {y : Float} (h : (y == x.abs) = true) : y = x.abs := by
    obtain ⟨hy, hx, hrank⟩ := (beq_iff y x.abs).1 h
    refine eq_of_rank_eq hy hx hrank ?_
    rw [hrank, rank, kind_abs hd, ScalarKind.rank, Dyadic.rank, signed_false]
    have hge := (canonical_of_kind hd).exponent_ge
    dsimp only
    omega
  induction tries generalizing count with
  | zero => exact toFloat_exact hd hm
  | succ tries ih =>
    unfold search
    simp only
    split
    · next h => exact hread h
    · split
      · next h => exact hread h
      · exact ih (count + 1)

theorem toFloat_shortest (tie : Tie) : (shortest tie d x.abs).toFloat = x.abs := by
  rw [shortest, toFloat_trim]
  exact toFloat_search hd hm tie _ _ _

theorem shortest_coefficient_pos (tie : Tie) : 0 < (shortest tie d x.abs).coefficient := by
  refine Nat.pos_of_ne_zero fun h0 => ?_
  have hread := toFloat_shortest hd hm tie
  generalize shortest tie d x.abs = found at h0 hread
  obtain ⟨c, e⟩ := found
  subst h0
  rw [toFloat_zero] at hread
  exact ne_zero_of_digits (kind_abs hd) hm false hread.symm

end

end BusRegen.Decimal
