import BusRegen.Proofs.Json.Number
/-!
# The quick way for short numbers

Digits that make a natural number below 2⁵³, and a power of ten up to the 22nd, are scalars
themselves. The product or quotient of the two is then the only thing that the quick way rounds, so
it comes to the nearest scalar (`quick?_eq_nearest?`), and a scalar whose text is that short
(`HasShortText`) is read from it by either reader (`readsBack_quick`).
-/
namespace BusRegen.Json

open Decimal

namespace Number

/-- Numbers whose digits make a scalar, and a power of ten that is one, too. -/
def IsShort (n : Number) : Prop :=
  ofDigits (n.whole ++ n.fraction) < 2 ^ 53 ∧ (n.exponent - n.fraction.length).natAbs ≤ 22

instance (n : Number) : Decidable n.IsShort := inferInstanceAs (Decidable (_ ∧ _))

theorem takeWord_append {whole fraction : List Char} (h : ofDigits (whole ++ fraction) < 2 ^ 64) :
    takeWord 0 whole = (ofDigits whole, []) ∧
      takeWord (ofDigits whole) fraction = (ofDigits (whole ++ fraction), []) := by
  rw [ofDigits, ofDigitsAfter_append] at h
  have hwhole := (le_ofDigitsAfter _ _).trans_lt h
  rw [takeWord_of_lt 0 whole hwhole, ofDigits, ofDigits, ofDigitsAfter_append]
  exact ⟨rfl, takeWord_of_lt _ _ h⟩

section
variable {w : Nat} {e : Int}

theorem value_bounds_of_short (hpos : 0 < w) (hw : w < 2 ^ 53) (he : e.natAbs ≤ 22) :
    (10 : ℚ) ^ (-400 : Int) ≤ value ⟨w, e⟩ ∧ value ⟨w, e⟩ < 10 ^ (400 : Int) := by
  have hone : (1 : ℚ) ≤ w := by exact_mod_cast hpos
  have htop : (w : ℚ) < 10 ^ (16 : Int) :=
    lt_trans (by exact_mod_cast hw : (w : ℚ) < 2 ^ 53) (by norm_num)
  have hten : (0 : ℚ) < 10 ^ e := by positivity
  unfold value
  constructor
  · calc (10 : ℚ) ^ (-400 : Int) ≤ 10 ^ e := zpow_le_zpow_right₀ (by norm_num) (by omega)
      _ ≤ w * 10 ^ e := le_mul_of_one_le_left hten.le hone
  · calc (w : ℚ) * 10 ^ e < 10 ^ (16 : Int) * 10 ^ e := by gcongr
      _ = 10 ^ (16 + e) := (zpow_add₀ (by norm_num) _ _).symm
      _ ≤ 10 ^ (400 : Int) := zpow_le_zpow_right₀ (by norm_num) (by omega)

/-- Powers of ten that are scalars are read as such. -/
theorem hasValue_power {k : Nat} (hk : k ≤ 22) :
    Scalar.HasValue (toFloat ⟨1, k⟩) (10 ^ k : Nat) := by
  have hvalue : value ⟨1, k⟩ = (10 ^ k : Nat) := by
    rw [value, zpow_natCast, Nat.cast_one, one_mul, Nat.cast_pow, Nat.cast_ofNat]
  have hk' : (k : Int).natAbs ≤ 22 := hk
  obtain ⟨hlow, hhigh⟩ := value_bounds_of_short Nat.one_pos (by decide) hk'
  refine (Scalar.hasValue_powerOfTen ⟨k, by omega⟩).of_kind_eq ?_
  rw [kind_toFloat Nat.one_pos hlow hhigh, hvalue]

/-- The one product or quotient is rounded like the decimal. -/
theorem scaled_eq_toFloat (hw : w < 2 ^ 53) (he : e.natAbs ≤ 22) :
    (if 0 ≤ e then Float.ofNat w * toFloat ⟨1, e.natAbs⟩
      else Float.ofNat w / toFloat ⟨1, e.natAbs⟩) = toFloat ⟨w, e⟩ := by
  have hpower := hasValue_power he
  rcases Nat.eq_zero_or_pos w with rfl | hpos
  · have hzero : Float.ofNat 0 = Scalar.zero false := Scalar.eq_of_kind_eq (by decide)
    rw [hzero, hpower.zero_mul, hpower.zero_div, ite_self, toFloat_zero]
  · have hword := Scalar.hasValue_ofNat hpos hw
    have hten : ((10 ^ e.natAbs : Nat) : ℚ) = 10 ^ |e| := by
      rw [Nat.cast_pow, Nat.cast_ofNat, ← zpow_natCast, Int.natCast_natAbs]
    obtain ⟨hlow, hhigh⟩ := value_bounds_of_short hpos hw he
    refine Scalar.eq_of_kind_eq ?_
    rw [kind_toFloat hpos hlow hhigh, value]
    split
    · next h0 => rw [hword.kind_mul hpower, hten, abs_of_nonneg h0]
    · next h0 =>
      rw [hword.kind_div hpower, hten, abs_of_neg (not_le.1 h0), zpow_neg, div_inv_eq_mul]

theorem scale?_short (hw : w < 2 ^ 53) (he : e.natAbs ≤ 22) :
    scale? (Float.ofNat w) e =
      if (toFloat ⟨w, e⟩).isFinite then some (toFloat ⟨w, e⟩) else none := by
  have hlimit : e.natAbs ≤ powerLimit := he.trans (by decide)
  have hmin : min (e.natAbs : Int) powerLimit = e.natAbs := min_eq_left (by exact_mod_cast hlimit)
  unfold scale?
  simp only [hmin, if_pos hlimit, scaled_eq_toFloat hw he]

end

/-- Of short numbers the quick way makes the nearest scalars as well. -/
theorem quick?_eq_nearest? {n : Number} (h : n.IsShort) : n.quick? = n.nearest? := by
  obtain ⟨hw, he⟩ := h
  obtain ⟨hwhole, hfraction⟩ := takeWord_append (hw.trans (by decide))
  unfold quick? nearest?
  simp only [hwhole, hfraction, List.length_nil, Nat.cast_zero, add_zero, scale?_short hw he]

end Number

/-- Scalars that are written as short numbers. -/
def HasShortText (x : Float) : Prop := ∃ m ∈ Number.ofChars? (scalarChars x), m.IsShort

instance (x : Float) : Decidable (HasShortText x) :=
  inferInstanceAs (Decidable (∃ m ∈ Number.ofChars? (scalarChars x), m.IsShort))

/-- A finite scalar with a short text is read by the quick way, too. -/
theorem readsBack_quick {x : Float} (hx : x.isFinite = true) (h : HasShortText x) :
    readsBack .quick x = true := by
  obtain ⟨m, hm, hshort⟩ := h
  have hsame : m.value? .quick = m.value? .nearest := by
    unfold Number.value? Number.scalar?
    rw [Number.quick?_eq_nearest? hshort]
  rw [← readsBack_nearest hx, readsBack, readsBack, word?_number hm, hsame, word?_number hm]

end BusRegen.Json
