import BusRegen.Proofs.Scalar.Bits
/-!
# Rounding

A scalar holds 53 binary digits, or fewer of the least unit. An exact magnitude is brought to the
unit of the scalars near it (`unitExponent`) and rounded to a whole number of these, a half going to
the even one (`nearestEven`). `nearest` is the kind of the scalar that it becomes.

The operations do not have the exact magnitude. They keep its first digits, the next digit and
whether any digit after that is not zero (`Describes`), which is all that rounding asks for
(`Describes.roundedMantissa`) and is kept when digits are shifted out (`Describes.shiftRight`). So
it makes no difference how the digits were come by: `kind_round` says that they are rounded to
`nearest` of the magnitude that they describe.
-/
namespace BusRegen

open Float.Model (UnpackedFloat Format totalExponent)
open Float.Model.UnpackedFloat

/-- The natural number nearest to a magnitude, a half going to the even one. -/
def nearestEven (x : ℚ) : Nat :=
  if 2 * (x - ⌊x⌋₊) < 1 then ⌊x⌋₊
  else if 1 < 2 * (x - ⌊x⌋₊) then ⌊x⌋₊ + 1
  else ⌊x⌋₊ + ⌊x⌋₊ % 2

theorem nearestEven_natCast (n : Nat) : nearestEven n = n := by
  simp [nearestEven]

theorem floor_le_nearestEven (x : ℚ) : ⌊x⌋₊ ≤ nearestEven x := by
  unfold nearestEven
  split
  · exact Nat.le_refl _
  · split <;> omega

theorem nearestEven_le (x : ℚ) : nearestEven x ≤ ⌊x⌋₊ + 1 := by
  unfold nearestEven
  split
  · omega
  · split <;> omega

/-- The exponent of the last digit of the scalars near a magnitude. -/
def unitExponent (x : ℚ) : Int := max (Int.log 2 x - 52) (-1074)

theorem unitExponent_ge (x : ℚ) : -1074 ≤ unitExponent x := le_max_right _ _

theorem log_eq {x : ℚ} {k : Int} (hle : (2 : ℚ) ^ k ≤ x) (hlt : x < (2 : ℚ) ^ (k + 1)) :
    Int.log 2 x = k := by
  have hx : 0 < x := lt_of_lt_of_le (by positivity) hle
  have h1 := (Int.zpow_le_iff_le_log (b := 2) (by norm_num) hx).1 (by exact_mod_cast hle)
  have h2 := (Int.lt_zpow_iff_log_lt (b := 2) (by norm_num) hx).1 (by exact_mod_cast hlt)
  omega

/-- In its unit a magnitude has fewer than 54 digits before the point. -/
theorem div_unit_lt (x : ℚ) : x / 2 ^ unitExponent x < 2 ^ 53 := by
  have h := Int.lt_zpow_succ_log_self (R := ℚ) (b := 2) (by norm_num) x
  have hle : (2 : ℚ) ^ (Int.log 2 x + 1) ≤ 2 ^ (53 + unitExponent x) := by
    refine zpow_le_zpow_right₀ (by norm_num) ?_
    unfold unitExponent
    omega
  rw [div_lt_iff₀ (by positivity)]
  calc x < (2 : ℚ) ^ (Int.log 2 x + 1) := by exact_mod_cast h
    _ ≤ 2 ^ (53 + unitExponent x) := hle
    _ = 2 ^ 53 * 2 ^ unitExponent x := by rw [zpow_add₀ (by norm_num)]; norm_cast

/-- In its unit a magnitude has 53 digits before the point, or the unit is the least one. -/
theorem le_div_unit {x : ℚ} (hx : 0 < x) :
    2 ^ 52 ≤ x / 2 ^ unitExponent x ∨ unitExponent x = -1074 := by
  by_cases h : Int.log 2 x - 52 ≤ -1074
  · exact .inr (max_eq_right h)
  · left
    have hu : unitExponent x = Int.log 2 x - 52 := max_eq_left (by omega)
    have hle := Int.zpow_log_le_self (R := ℚ) (b := 2) (by norm_num) hx
    rw [le_div_iff₀ (by positivity), hu]
    calc (2 : ℚ) ^ 52 * 2 ^ (Int.log 2 x - 52) = 2 ^ Int.log 2 x := by
          rw [zpow_sub₀ (by norm_num)]
          field_simp
      _ ≤ x := by exact_mod_cast hle

theorem nearestEven_le_of_lt {x : ℚ} {n : Nat} (h : x < n) : nearestEven x ≤ n := by
  by_cases hx : 0 ≤ x
  · have := (Nat.floor_lt hx).2 h
    have := nearestEven_le x
    omega
  · have hf : ⌊x⌋₊ = 0 := Nat.floor_of_nonpos (by linarith)
    unfold nearestEven
    rw [hf, if_pos (by push_cast; linarith)]
    exact Nat.zero_le n

theorem le_nearestEven {x : ℚ} {n : Nat} (h : n ≤ x) : n ≤ nearestEven x :=
  (Nat.le_floor h).trans (floor_le_nearestEven x)

/-- A magnitude to 53 digits, with a sign. One digit too many is a carry, and a zero. -/
def rounded (negative : Bool) (x : ℚ) : Dyadic :=
  let m := nearestEven (x / 2 ^ unitExponent x)
  if m = 2 ^ 53 then ⟨negative, 2 ^ 52, unitExponent x + 1⟩ else ⟨negative, m, unitExponent x⟩

/-- The kind of the scalar nearest to a magnitude, with a sign. -/
def nearest (negative : Bool) (x : ℚ) : ScalarKind :=
  if 971 < (rounded negative x).exponent then .infinite negative
  else .finite (rounded negative x)

theorem negative_rounded (n : Bool) (x : ℚ) : (rounded n x).negative = n := by
  unfold rounded
  dsimp only
  split <;> rfl

theorem nearestEven_unit_le (x : ℚ) : nearestEven (x / 2 ^ unitExponent x) ≤ 2 ^ 53 :=
  nearestEven_le_of_lt (by exact_mod_cast div_unit_lt x)

theorem rounded_fields {x : ℚ} (hx : 0 < x) (n : Bool) :
    (rounded n x).mantissa < 2 ^ 53 ∧ -1074 ≤ (rounded n x).exponent ∧
      (2 ^ 52 ≤ (rounded n x).mantissa ∨ (rounded n x).exponent = -1074) := by
  have hm := nearestEven_unit_le x
  have hu := unitExponent_ge x
  unfold rounded
  dsimp only
  split
  · exact ⟨by norm_num, by simp only; omega, .inl (by norm_num)⟩
  · refine ⟨by simp only; omega, hu, ?_⟩
    rcases le_div_unit hx with h | h
    · exact .inl (le_nearestEven (by exact_mod_cast h))
    · exact .inr h

theorem canonical_rounded {x : ℚ} (hx : 0 < x) {n : Bool} (he : (rounded n x).exponent ≤ 971) :
    (rounded n x).Canonical := by
  obtain ⟨hm, hu, hfull⟩ := rounded_fields hx n
  exact ⟨hm, hu, he, hfull⟩

/-- The least positive scalar. -/
def leastUnit : ℚ := 2 ^ (-1074 : Int)

theorem leastUnit_pos : 0 < leastUnit := zpow_pos two_pos _

/-- No magnitude from the least unit on is rounded to zero. -/
theorem rounded_pos {x : ℚ} (hx : leastUnit ≤ x) (n : Bool) : 0 < (rounded n x).mantissa := by
  have hpos : 0 < x := leastUnit_pos.trans_le hx
  unfold rounded
  dsimp only
  split
  · norm_num
  · refine le_nearestEven ?_
    rcases le_div_unit hpos with h | h
    · exact le_trans (by norm_num) h
    · rw [h, ← leastUnit, le_div_iff₀ leastUnit_pos]
      simpa using hx

/-- A magnitude below the greatest power of two is not rounded to an infinity. -/
theorem nearest_eq_finite {x : ℚ} (hpos : 0 < x) (hx : x < (2 : ℚ) ^ (1023 : Int)) (n : Bool) :
    nearest n x = .finite (rounded n x) := by
  have hlog : Int.log 2 x < 1023 :=
    (Int.lt_zpow_iff_log_lt (by norm_num) hpos).1 (by exact_mod_cast hx)
  have hu : unitExponent x ≤ 970 := by
    unfold unitExponent
    omega
  refine if_neg ?_
  unfold rounded
  dsimp only
  split <;> simp only <;> omega

/-! ## Digits with a rest -/

/-- The digits before the point, the first one after it, and whether any other is not zero. -/
def Describes (em : ExtendedMantissa) (x : ℚ) : Prop :=
  match em.roundBit, em.stickyBit with
  | false, false => x = em.mantissa
  | false, true => em.mantissa < x ∧ x < em.mantissa + 1 / 2
  | true, false => x = em.mantissa + 1 / 2
  | true, true => em.mantissa + 1 / 2 < x ∧ x < em.mantissa + 1

theorem Describes.bounds {em : ExtendedMantissa} {x : ℚ} (h : Describes em x) :
    em.mantissa ≤ x ∧ x < em.mantissa + 1 := by
  obtain ⟨m, r, s⟩ := em
  cases r <;> cases s <;> simp only [Describes] at h <;> constructor <;> linarith

theorem Describes.floor {em : ExtendedMantissa} {x : ℚ} (h : Describes em x) :
    ⌊x⌋₊ = em.mantissa := by
  obtain ⟨hle, hlt⟩ := h.bounds
  exact (Nat.floor_eq_iff (le_trans (by positivity) hle)).2 ⟨hle, hlt⟩

theorem Describes.roundedMantissa {em : ExtendedMantissa} {x : ℚ} (h : Describes em x) :
    em.roundedMantissa = nearestEven x := by
  unfold nearestEven
  rw [h.floor]
  obtain ⟨m, r, s⟩ := em
  cases r <;> cases s <;> simp only [Describes] at h
  · rw [if_pos (by linarith)]; rfl
  · rw [if_pos (by linarith)]; rfl
  · rw [if_neg (by linarith), if_neg (by linarith)]; rfl
  · rw [if_neg (by linarith), if_pos (by linarith)]; rfl

theorem Describes.shiftRightOne {em : ExtendedMantissa} {x : ℚ} (h : Describes em x) :
    Describes em.shiftRightOne (x / 2) := by
  obtain ⟨m, r, s⟩ := em
  obtain ⟨q, rfl | rfl⟩ := Nat.even_or_odd' m
  · have hq : 2 * q / 2 = q := by omega
    cases r <;> cases s <;>
      simp [Describes, ExtendedMantissa.shiftRightOne, hq] at h ⊢ <;>
      first | linarith | (constructor <;> linarith)
  · have hq : (2 * q + 1) / 2 = q := by omega
    have hr : (2 * q + 1) % 2 = 1 := by omega
    cases r <;> cases s <;>
      simp [Describes, ExtendedMantissa.shiftRightOne, hq, hr] at h ⊢ <;>
      first | linarith | (constructor <;> linarith)

theorem Describes.shiftRight {em : ExtendedMantissa} {x : ℚ} (h : Describes em x) (k : Nat) :
    Describes (em >>> k) (x / 2 ^ k) := by
  change Describes (k.repeat ExtendedMantissa.shiftRightOne em) _
  induction k with
  | zero => simpa [Nat.repeat] using h
  | succ k ih =>
    rw [Nat.repeat, pow_succ, ← div_div]
    exact ih.shiftRightOne

theorem describes_exact (m : Nat) : Describes (.ofMantissaAndAccuracy m .exact) m := rfl

/-- The digits and the rest of a quotient. -/
theorem describes_div (a : Nat) {b : Nat} (hb : 0 < b) :
    Describes (.ofMantissaAndAccuracy (a / b) (accuracyOfFraction (a % b) b)) (a / b : ℚ) := by
  have hab : (a : ℚ) = b * (a / b : Nat) + (a % b : Nat) := by
    exact_mod_cast (Nat.div_add_mod a b).symm
  have hr : ((a % b : Nat) : ℚ) < b := by exact_mod_cast Nat.mod_lt a hb
  have hb' : (0 : ℚ) < b := by exact_mod_cast hb
  have hx : (a / b : ℚ) = (a / b : Nat) + (a % b : Nat) / b := by
    rw [hab]
    field_simp
  rw [hx]
  generalize a / b = q
  generalize a % b = r at hr
  unfold accuracyOfFraction
  by_cases h0 : r = 0
  · rw [if_pos h0, h0]
    simp [ExtendedMantissa.ofMantissaAndAccuracy, Describes]
  · have hr0 : (0 : ℚ) < r := by exact_mod_cast Nat.pos_of_ne_zero h0
    rw [if_neg h0]
    rcases Nat.lt_trichotomy (2 * r) b with h | h | h
    · have h' : (2 * r : ℚ) < b := by exact_mod_cast h
      rw [Nat.compare_eq_lt.2 h]
      change (q : ℚ) < q + r / b ∧ (q : ℚ) + r / b < q + 1 / 2
      rw [add_lt_add_iff_left, div_lt_div_iff₀ hb' two_pos, lt_add_iff_pos_right]
      exact ⟨by positivity, by linarith⟩
    · have h' : (2 * r : ℚ) = b := by exact_mod_cast h
      rw [Nat.compare_eq_eq.2 h]
      change (q : ℚ) + r / b = q + 1 / 2
      rw [← h']
      field_simp
    · have h' : (b : ℚ) < 2 * r := by exact_mod_cast h
      rw [Nat.compare_eq_gt.2 h]
      change (q : ℚ) + 1 / 2 < q + r / b ∧ (q : ℚ) + r / b < q + 1
      rw [add_lt_add_iff_left, add_lt_add_iff_left, div_lt_div_iff₀ two_pos hb', div_lt_one hb']
      exact ⟨by linarith, hr⟩

/-! ## Rounding of forms -/

theorem targetExponent_binary64 (t : Int) :
    Format.binary64.targetExponent t = max (t - 53) (-1074) := rfl

theorem log_eq_of_digits {m : Nat} {x y : ℚ} {e : Int} (hm : 0 < m) (hle : m ≤ y)
    (hlt : y < m + 1) (hxy : x = y * 2 ^ e) : Int.log 2 x = m.log2 + e := by
  have h1 : (2 ^ m.log2 : ℚ) ≤ m := by exact_mod_cast Nat.log2_self_le (Nat.ne_of_gt hm)
  have h2 : (m + 1 : ℚ) ≤ 2 ^ (m.log2 + 1) := by exact_mod_cast Nat.lt_log2_self
  refine log_eq ?_ ?_
  · rw [hxy, zpow_add₀ two_ne_zero, zpow_natCast]
    gcongr
    exact h1.trans hle
  · rw [hxy, add_right_comm, zpow_add₀ two_ne_zero]
    gcongr
    exact_mod_cast hlt.trans_le h2

/-- Where there are digits, they are counted in the unit of their magnitude. -/
theorem targetExponent_of_pos {m : Nat} {x y : ℚ} {e : Int} (hm : 0 < m) (hle : m ≤ y)
    (hlt : y < m + 1) (hxy : x = y * 2 ^ e) :
    Format.binary64.targetExponent (totalExponent m e) = unitExponent x := by
  rw [targetExponent_binary64, totalExponent, unitExponent, log_eq_of_digits hm hle hlt hxy]
  congr 1
  omega

/-- A magnitude is shifted to its unit, if it is not given in a greater one. -/
theorem targetExponent_eq {m : Nat} {x y : ℚ} {e : Int} (hle : m ≤ y) (hlt : y < m + 1)
    (hx : 0 < x) (hxy : x = y * 2 ^ e) (he : e ≤ unitExponent x) :
    Format.binary64.targetExponent (totalExponent m e) = unitExponent x := by
  rcases Nat.eq_zero_or_pos m with rfl | hpos
  · -- There is no digit to count below one unit, but then the unit is the least.
    have hlog : Int.log 2 x < e := by
      refine (Int.lt_zpow_iff_log_lt (by norm_num) hx).1 ?_
      rw [hxy, Nat.cast_ofNat]
      exact mul_lt_of_lt_one_left (by positivity) (by simpa using hlt)
    rw [targetExponent_binary64, totalExponent]
    unfold unitExponent at he ⊢
    change max (((0 : Nat) : Int) + 1 + e - 53) (-1074) = _
    omega
  · exact targetExponent_of_pos hpos hle hlt hxy

theorem shiftToTargetExponent_eq {m : Nat} {acc : Accuracy} {x y : ℚ} {e : Int}
    (hd : Describes (.ofMantissaAndAccuracy m acc) y) (hx : 0 < x) (hxy : x = y * 2 ^ e)
    (he : e ≤ unitExponent x) :
    ∃ em, shiftToTargetExponent .binary64 m e acc = (em, unitExponent x) ∧
      Describes em (x / 2 ^ unitExponent x) := by
  have hm : (ExtendedMantissa.ofMantissaAndAccuracy m acc).mantissa = m := by
    cases acc with
    | exact => rfl
    | inexact o => cases o <;> rfl
  obtain ⟨hle, hlt⟩ := hd.bounds
  rw [hm] at hle hlt
  have ht := targetExponent_eq hle hlt hx hxy he
  unfold shiftToTargetExponent
  rw [ht]
  refine ⟨_, by rw [shiftToExponent, Int.toNat_of_nonneg (by omega), add_sub_cancel], ?_⟩
  have hpow : x / 2 ^ unitExponent x = y / 2 ^ (unitExponent x - e).toNat := by
    rw [← zpow_natCast, Int.toNat_of_nonneg (by omega), zpow_sub₀ two_ne_zero,
      div_div_eq_mul_div, ← hxy]
  rw [hpow]
  exact hd.shiftRight _

/-- Digits that fit are not shifted. -/
theorem shiftToTargetExponent_of_lt {m : Nat} {e : Int} (hm : m < 2 ^ 53) (he : -1074 ≤ e) :
    shiftToTargetExponent .binary64 m e .exact = (⟨m, false, false⟩, e) := by
  have hlog : m.log2 < 53 := by
    rcases Nat.eq_zero_or_pos m with rfl | hpos
    · decide
    · exact (Nat.log2_lt (Nat.ne_of_gt hpos)).2 hm
  have hk : (Format.binary64.targetExponent (totalExponent m e) - e).toNat = 0 := by
    rw [targetExponent_binary64, totalExponent]
    omega
  simp only [shiftToTargetExponent, shiftToExponent, hk]
  rw [Nat.cast_zero, add_zero]
  rfl

/-- A carry makes one digit too many, which is a zero. -/
theorem shiftToTargetExponent_carry {e : Int} (he : -1074 ≤ e) :
    shiftToTargetExponent .binary64 (2 ^ 53) e .exact = (⟨2 ^ 52, false, false⟩, e + 1) := by
  have hk : (Format.binary64.targetExponent (totalExponent (2 ^ 53) e) - e).toNat = 1 := by
    rw [targetExponent_binary64, totalExponent, Nat.log2_two_pow]
    omega
  simp only [shiftToTargetExponent, shiftToExponent, hk]
  rfl

/-- The form of a rounded magnitude. -/
theorem roundWithAccuracy_eq {m : Nat} {acc : Accuracy} {x y : ℚ} {e : Int} (n : Bool)
    (hd : Describes (.ofMantissaAndAccuracy m acc) y) (hx : 0 < x) (hxy : x = y * 2 ^ e)
    (he : e ≤ unitExponent x) :
    roundWithAccuracy .binary64 (signOf n) m e acc = (ScalarKind.finite (rounded n x)).form := by
  obtain ⟨em, hs, hem⟩ := shiftToTargetExponent_eq hd hx hxy he
  have hu := unitExponent_ge x
  have hle := nearestEven_unit_le x
  rw [roundWithAccuracy, hs]
  dsimp only
  rw [hem.roundedMantissa]
  unfold rounded
  generalize nearestEven (x / 2 ^ unitExponent x) = r at hle
  generalize hq : shiftToTargetExponent .binary64 r (unitExponent x) .exact = q
  by_cases h : r = 2 ^ 53
  · rw [h, shiftToTargetExponent_carry hu] at hq
    rw [if_pos h, ← hq]
    rfl
  · rw [shiftToTargetExponent_of_lt (by omega) hu] at hq
    rw [if_neg h, ← hq]
    rfl

/-- Digits in too great a unit are packed as an infinity. -/
theorem ofForm_overflow (n : Bool) {m : Nat} {e : Int} (h : 0 < m) (he : 971 < e) :
    Scalar.ofForm (.finite (signOf n) m e h) = Scalar.ofForm (.infinity (signOf n)) := by
  have hb : 2 ^ Format.binary64.exponentBits ≤
      (e + Format.binary64.exponentBias + (52 : Nat)).toNat + 1 := by
    change 2048 ≤ (e + 1023 + 52).toNat + 1
    omega
  have hpack : UnpackedFloat.pack .binary64 (.finite (signOf n) m e h) =
      UnpackedFloat.pack .binary64 (.infinity (signOf n)) := if_pos hb
  unfold Scalar.ofForm Float.Model.pack
  congr 3

/-- The scalar that digits with a rest are rounded to. -/
theorem kind_round {m : Nat} {acc : Accuracy} {x y : ℚ} {e : Int} (n : Bool)
    (hd : Describes (.ofMantissaAndAccuracy m acc) y) (hx : 0 < x) (hxy : x = y * 2 ^ e)
    (he : e ≤ unitExponent x) :
    Scalar.kind (Scalar.ofForm (roundWithAccuracy .binary64 (signOf n) m e acc)) = nearest n x := by
  rw [roundWithAccuracy_eq n hd hx hxy he, nearest]
  by_cases h : 971 < (rounded n x).exponent
  · have hm : 0 < (rounded n x).mantissa := by
      have := rounded_fields hx n
      omega
    rw [if_pos h, ScalarKind.form_finite hm, ofForm_overflow _ hm h, negative_rounded]
    exact Scalar.kind_ofForm (k := .infinite n) trivial
  · rw [if_neg h]
    exact Scalar.kind_ofForm (k := .finite _) (canonical_rounded hx (by omega))

/-- The scalar that digits are rounded to in whatever unit they are given. -/
theorem kind_roundForm (n : Bool) {m : Nat} (hm : 0 < m) (e : Int) :
    Scalar.kind (Scalar.ofForm (UnpackedFloat.round .binary64 (signOf n) m e)) =
      nearest n (m * 2 ^ e) := by
  have hx : (0 : ℚ) < m * 2 ^ e := by positivity
  have ht := targetExponent_of_pos (e := e) hm le_rfl (lt_add_one (m : ℚ)) rfl
  unfold UnpackedFloat.round
  rw [ht]
  generalize hu : unitExponent (m * 2 ^ e) = u
  refine kind_round n (describes_exact _) hx ?_ ?_
  · rw [Nat.shiftLeft_eq, Nat.cast_mul, Nat.cast_pow, Nat.cast_ofNat, zpow_sub₀ two_ne_zero,
      zpow_natCast]
    field_simp
  · rw [hu]
    omega

theorem kind_normalize (m : Int) (e : Int) (n : Bool) :
    Scalar.kind (Scalar.ofForm (UnpackedFloat.normalize .binary64 m e (signOf n))) =
      if m = 0 then .finite ⟨n, 0, -1074⟩ else nearest (decide (m < 0)) (m.natAbs * 2 ^ e) := by
  unfold UnpackedFloat.normalize
  rcases Int.lt_trichotomy m 0 with h | rfl | h
  · rw [Int.compare_eq_lt.2 h, if_neg h.ne, decide_eq_true h,
      show m.natAbs = (-m).toNat by omega]
    exact kind_roundForm true (by omega) e
  · rw [Int.compare_eq_eq.2 rfl, if_pos rfl, ← ScalarKind.form_zero (d := ⟨n, 0, -1074⟩) rfl]
    exact Scalar.kind_ofForm ⟨by norm_num, le_rfl, by norm_num, .inr rfl⟩
  · rw [Int.compare_eq_gt.2 h, if_neg h.ne', decide_eq_false (not_lt.2 h.le),
      show m.natAbs = m.toNat by omega]
    exact kind_roundForm false (by omega) e

end BusRegen
