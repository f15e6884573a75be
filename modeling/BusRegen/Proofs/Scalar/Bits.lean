import BusRegen.Proofs.Scalar.Kind
/-!
# Scalars as bit patterns

There are more patterns than scalars, as all patterns of a NaN stand for the one scalar that is no
number (`ofBits_eq_iff`). Apart from that a pattern can be told from its kind (`bits_kindOfBits`),
so scalars of one kind are equal (`eq_of_kind_eq`).
-/
namespace BusRegen

/-- The bit pattern of the scalar of a kind. -/
def ScalarKind.bits : ScalarKind → Nat
  | .nan => 2047 * 2 ^ 52 + 2 ^ 51
  | .infinite n => n.toNat * 2 ^ 63 + 2047 * 2 ^ 52
  | .finite d =>
    d.negative.toNat * 2 ^ 63 +
      (if d.mantissa < 2 ^ 52 then 0 else (d.exponent + 1075).toNat) * 2 ^ 52 + d.mantissa % 2 ^ 52

namespace Scalar

/-- The patterns of a NaN have the greatest exponent and a fraction that is not zero. -/
def IsNaNPattern (bits : Nat) : Prop := bits / 2 ^ 52 % 2 ^ 11 = 2047 ∧ bits % 2 ^ 52 ≠ 0

instance (bits : Nat) : Decidable (IsNaNPattern bits) := inferInstanceAs (Decidable (_ ∧ _))

theorem kindOfBits_eq_nan_iff (bits : Nat) : kindOfBits bits = .nan ↔ IsNaNPattern bits := by
  unfold kindOfBits IsNaNPattern
  dsimp only
  split
  · split <;> simp_all
  · split <;> simp_all

/-- A pattern of a number can be told from its kind. -/
theorem bits_kindOfBits {bits : Nat} (h : bits < 2 ^ 64) (hn : ¬ IsNaNPattern bits) :
    (kindOfBits bits).bits = bits := by
  have hsign : (bits / 2 ^ 63 == 1).toNat = bits / 2 ^ 63 := by
    rcases (by omega : bits / 2 ^ 63 = 0 ∨ bits / 2 ^ 63 = 1) with h0 | h1
    · rw [h0]; rfl
    · rw [h1]; rfl
  unfold IsNaNPattern at hn
  unfold kindOfBits
  dsimp only
  split
  · split
    · simp only [ScalarKind.bits, hsign]
      omega
    · omega
  · split
    · simp only [ScalarKind.bits, hsign, if_pos (Nat.mod_lt bits (by decide : 2 ^ 52 > 0))]
      omega
    · have hle : ¬ 2 ^ 52 + bits % 2 ^ 52 < 2 ^ 52 := by omega
      simp only [ScalarKind.bits, hsign, if_neg hle, Int.ofNat_eq_natCast]
      omega

/-- The pattern of a scalar is that of its kind, as a scalar that is no number has the one pattern
only. -/
theorem toBits_eq (x : Float) : x.toBits.toNat = (kind x).bits := by
  by_cases h : IsNaNPattern x.toBits.toNat
  · have hk : kind x = .nan := (kindOfBits_eq_nan_iff _).2 h
    have hE := unpackExponent_toNat x.toBits.toBitVec
    have hM := unpackMantissa_toNat x.toBits.toBitVec
    have hvalid := x.toModel.valid.eq_packedNaN
      (BitVec.eq_of_toNat_eq (hE.trans h.1))
      (fun h0 => h.2 (hM.symm.trans (congrArg BitVec.toNat h0)))
    rw [hk]
    exact congrArg BitVec.toNat hvalid
  · exact (bits_kindOfBits x.toBits.toNat_lt h).symm

theorem eq_of_kind_eq {x y : Float} (h : kind x = kind y) : x = y := by
  have hbits : x.toBits = y.toBits := UInt64.toNat_inj.1 (by rw [toBits_eq, toBits_eq, h])
  cases x with
  | ofModel m =>
    cases m with
    | mk b hb =>
      cases y with
      | ofModel m' =>
        cases m' with
        | mk b' hb' =>
          cases hbits
          rfl

theorem kind_ofBits (w : UInt64) : kind (Float.ofBits w) = kindOfBits w.toNat := by
  change kind (ofForm (.unpack .binary64 w.toBitVec)) = _
  rw [unpack_bits]
  exact kind_ofForm (kindOfBits_canonical _)

/-- The patterns that stand for a scalar: its own one, or any pattern of a NaN. -/
theorem ofBits_eq_iff (w : UInt64) (x : Float) :
    Float.ofBits w = x ↔ w = x.toBits ∨ x.isNaN = true ∧ IsNaNPattern w.toNat := by
  have hk : Float.ofBits w = x ↔ kindOfBits w.toNat = kind x :=
    ⟨fun h => by rw [← kind_ofBits, h], fun h => eq_of_kind_eq (by rw [kind_ofBits, h])⟩
  rw [hk, isNaN_iff, ← kindOfBits_eq_nan_iff]
  constructor
  · intro h
    by_cases hn : kind x = .nan
    · exact .inr ⟨hn, h.trans hn⟩
    · have hw : ¬ IsNaNPattern w.toNat := by
        rwa [← kindOfBits_eq_nan_iff, h]
      refine .inl (UInt64.toNat_inj.1 ?_)
      rw [toBits_eq, ← h, bits_kindOfBits w.toNat_lt hw]
  · rintro (rfl | ⟨hx, hw⟩)
    · rfl
    · rw [hx, hw]

end Scalar
end BusRegen
