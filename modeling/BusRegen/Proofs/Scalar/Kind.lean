import Mathlib
import BusRegen.Scalar
/-!
# The kind of a scalar, and what the operations make of it

A scalar is a bit pattern. Its operations unpack the pattern, work on the unpacked form and pack the
result again. `Scalar.kind` reads the same three fields of the pattern, so everything about a scalar
can be said of its kind, without a look at the bits:

* `unpack_eq`: the unpacked form of a scalar is the form of its kind (`ScalarKind.form`);
* `kind_canonical`: the kind of a scalar is canonical, i.e. its value has as many digits as fit;
* `kind_ofForm`: packing the form of a canonical kind gives a scalar of that kind.

From these follow the kind of a negated scalar, and when a scalar is finite or no number.
-/
namespace BusRegen

open Float.Model (UnpackedFloat Format)
open Float.Model.UnpackedFloat

/-! ## The three fields of a bit pattern -/

theorem unpackMantissa_toNat (b : BitVec 64) :
    (@unpackMantissa .binary64 b).toNat = b.toNat % 2 ^ 52 := by
  simp [unpackMantissa]

theorem unpackExponent_toNat (b : BitVec 64) :
    (@unpackExponent .binary64 b).toNat = b.toNat / 2 ^ 52 % 2 ^ 11 := by
  simp [unpackExponent, Nat.shiftRight_eq_div_pow]

theorem unpackSign_toNat (b : BitVec 64) :
    (@unpackSign .binary64 b).toNat = b.toNat / 2 ^ 63 := by
  have hb : b.toNat < 2 ^ 64 := b.isLt
  simp only [unpackSign, BitVec.extractLsb, BitVec.toNat_cast, BitVec.extractLsb'_toNat,
    Nat.shiftRight_eq_div_pow]
  omega

theorem packComponents_toNat (s : Sign) (e : BitVec 11) (m : BitVec 52) :
    (packComponents .binary64 s e m).toNat =
      s.toBitVec.toNat * 2 ^ 63 + e.toNat * 2 ^ 52 + m.toNat := by
  have he := e.isLt
  have hm := m.isLt
  simp only [packComponents, BitVec.toNat_append]
  rw [← Nat.shiftLeft_add_eq_or_of_lt he, ← Nat.shiftLeft_add_eq_or_of_lt hm]
  simp only [Nat.shiftLeft_eq]
  omega

/-- A mantissa of a full scalar with the leading one that its pattern leaves out. -/
theorem leadingOne_toNat (m : BitVec 52) : (1#1 ++ m).toNat = 2 ^ 52 + m.toNat := by
  rw [BitVec.toNat_append, ← Nat.shiftLeft_add_eq_or_of_lt m.isLt, Nat.shiftLeft_eq]
  simp

/-! ## Kinds as unpacked forms -/

/-- The sign that a flag stands for. -/
def signOf (negative : Bool) : Sign := if negative then .negative else .positive

theorem signOf_neg (n : Bool) : -signOf n = signOf !n := by cases n <;> rfl

theorem signOf_toNat (n : Bool) : (signOf n).toBitVec.toNat = n.toNat := by cases n <;> rfl

theorem ofBitVec_eq_signOf (v : BitVec 1) : Sign.ofBitVec v = signOf (v.toNat == 1) := by
  unfold Sign.ofBitVec signOf
  have hv : v.toNat < 2 := v.isLt
  by_cases h : v.toNat = 1
  · rw [if_neg (by rintro rfl; simp at h), if_pos (by simpa using h)]
  · rw [if_pos (BitVec.eq_of_toNat_eq (by simp; omega)), if_neg (by simpa using h)]

/-- The value has as many binary digits as a scalar holds, or the least exponent. -/
structure Dyadic.Canonical (d : Dyadic) : Prop where
  mantissa_lt : d.mantissa < 2 ^ 53
  exponent_ge : -1074 ≤ d.exponent
  exponent_le : d.exponent ≤ 971
  full : 2 ^ 52 ≤ d.mantissa ∨ d.exponent = -1074

namespace ScalarKind

def Canonical : ScalarKind → Prop
  | .finite d => d.Canonical
  | _ => True

/-- The unpacked form of the scalars of a kind. -/
def form : ScalarKind → UnpackedFloat
  | .nan => .notANumber
  | .infinite n => .infinity (signOf n)
  | .finite d =>
    if h : d.mantissa = 0 then .zero (signOf d.negative)
    else .finite (signOf d.negative) d.mantissa d.exponent (Nat.pos_of_ne_zero h)

theorem form_finite {d : Dyadic} (h : 0 < d.mantissa) :
    form (.finite d) = .finite (signOf d.negative) d.mantissa d.exponent h :=
  dif_neg (Nat.ne_of_gt h)

theorem form_zero {d : Dyadic} (h : d.mantissa = 0) :
    form (.finite d) = .zero (signOf d.negative) :=
  dif_pos h

/-- The kind of the negated scalar. -/
def neg : ScalarKind → ScalarKind
  | .nan => .nan
  | .infinite n => .infinite !n
  | .finite d => .finite { d with negative := !d.negative }

theorem neg_form (k : ScalarKind) : k.form.neg = k.neg.form := by
  cases k with
  | nan => rfl
  | infinite n => simp only [form, neg, UnpackedFloat.neg, signOf_neg]
  | finite d =>
    simp only [form, neg]
    split <;> simp only [UnpackedFloat.neg, signOf_neg]

theorem Canonical.neg {k : ScalarKind} (h : k.Canonical) : k.neg.Canonical := by
  cases k with
  | nan | infinite n => trivial
  | finite d => exact ⟨h.mantissa_lt, h.exponent_ge, h.exponent_le, h.full⟩

end ScalarKind

namespace Scalar

/-! ## From scalars to kinds -/

/-- The kind that a bit pattern stands for. -/
def kindOfBits (bits : Nat) : ScalarKind :=
  let negative := bits / 2 ^ 63 == 1
  let exponent : Nat := bits / 2 ^ 52 % 2 ^ 11
  let fraction := bits % 2 ^ 52
  if exponent = 2047 then
    if fraction = 0 then .infinite negative else .nan
  else if exponent = 0 then .finite ⟨negative, fraction, -1074⟩
  else .finite ⟨negative, 2 ^ 52 + fraction, Int.ofNat exponent - 1075⟩

theorem kindOfBits_canonical (bits : Nat) : (kindOfBits bits).Canonical := by
  unfold kindOfBits
  simp only [Int.ofNat_eq_natCast]
  split
  · split <;> trivial
  · split
    · exact ⟨by simp only; omega, by simp, by simp, .inr rfl⟩
    · exact ⟨by simp only; omega, by simp only; omega, by simp only; omega,
        .inl (by simp only; omega)⟩

theorem kind_canonical (x : Float) : (kind x).Canonical := kindOfBits_canonical _

/-- A bit pattern unpacks to the form of its kind. -/
theorem unpack_bits (w : UInt64) :
    UnpackedFloat.unpack .binary64 w.toBitVec = (kindOfBits w.toNat).form := by
  have hE := unpackExponent_toNat w.toBitVec
  have hM := unpackMantissa_toNat w.toBitVec
  have hS := unpackSign_toNat w.toBitVec
  rw [show w.toBitVec.toNat = w.toNat from rfl] at hE hM hS
  have hbias : (Format.binary64.exponentBias : Int) + (52 : Nat) = 1075 := rfl
  simp only [UnpackedFloat.unpack, ofBitVec_eq_signOf, hS, kindOfBits, ← BitVec.toNat_inj, hE, hM,
    show (-1#11).toNat = 2047 from rfl, BitVec.toNat_zero, hbias, Int.ofNat_eq_natCast]
  split
  · split <;> rfl
  · split
    · rename_i h0
      split
      · rename_i hm
        rw [ScalarKind.form_zero (by exact hm)]
      · rename_i hm
        rw [ScalarKind.form_finite (Nat.pos_of_ne_zero hm), h0]
        rfl
    · rw [ScalarKind.form_finite (by simp only; omega)]
      congr 1
      rw [leadingOne_toNat, hM]

/-- A scalar unpacks to the form of its kind. -/
theorem unpack_eq (x : Float) : x.toModel.unpack = (kind x).form := unpack_bits x.toBits

/-! ## From kinds to scalars -/

/-- The scalar with a given unpacked form. -/
def ofForm (u : UnpackedFloat) : Float := .ofModel (.pack u)

/-- A kind whose fields are known. -/
theorem kind_of_fields {x : Float} {n : Bool} {e f : Nat} (he : e < 2 ^ 11) (hf : f < 2 ^ 52)
    (h : x.toBits.toNat = n.toNat * 2 ^ 63 + e * 2 ^ 52 + f) :
    kind x =
      if e = 2047 then if f = 0 then .infinite n else .nan
      else if e = 0 then .finite ⟨n, f, -1074⟩
      else .finite ⟨n, 2 ^ 52 + f, (e : Int) - 1075⟩ := by
  have hn : n.toNat < 2 := Bool.toNat_lt n
  have h1 : x.toBits.toNat / 2 ^ 63 = n.toNat := by omega
  have h2 : x.toBits.toNat / 2 ^ 52 % 2 ^ 11 = e := by omega
  have h3 : x.toBits.toNat % 2 ^ 52 = f := by omega
  have hs : (n.toNat == 1) = n := by cases n <;> rfl
  simp only [kind, h1, h2, h3, hs, Int.ofNat_eq_natCast]

theorem toBits_ofForm_finite (n : Bool) {m : Nat} {e : Int} (h : 0 < m) (hm : m < 2 ^ 53)
    (he : -1074 ≤ e) (he' : e ≤ 971) :
    (ofForm (.finite (signOf n) m e h)).toBits.toNat =
      n.toNat * 2 ^ 63 + (if m < 2 ^ 52 then 0 else (e + 1075).toNat) * 2 ^ 52 + m % 2 ^ 52 := by
  have hbias : e + Format.binary64.exponentBias + (52 : Nat) = e + 1075 := by
    change e + 1023 + 52 = _
    omega
  have hlog : m.log2 + 1 = Format.binary64.mantissaBits ↔ ¬ m < 2 ^ 52 := by
    change m.log2 + 1 = 53 ↔ _
    have h52 := Nat.log2_lt (Nat.ne_of_gt h) (k := 52)
    have h53 := (Nat.log2_lt (Nat.ne_of_gt h)).2 hm
    omega
  change (UnpackedFloat.pack .binary64 _).toNat = _
  simp only [UnpackedFloat.pack, hbias, hlog]
  rw [if_neg (by omega)]
  by_cases hs : m < 2 ^ 52
  · rw [if_neg (not_not_intro hs), packComponents_toNat, signOf_toNat, if_pos hs]
    rfl
  · rw [if_pos hs, packComponents_toNat, signOf_toNat, if_neg hs]
    simp only [BitVec.toNat_ofNat]
    omega

/-- The form of a canonical kind, packed, has that kind. -/
theorem kind_ofForm {k : ScalarKind} (h : k.Canonical) : kind (ofForm k.form) = k := by
  cases k with
  | nan => rfl
  | infinite n => cases n <;> rfl
  | finite d =>
    obtain ⟨n, m, e⟩ := d
    obtain ⟨hm, he, he', hfull⟩ := h
    simp only at hm he he' hfull
    rcases Nat.eq_zero_or_pos m with rfl | hpos
    · obtain rfl : e = -1074 := by omega
      cases n <;> rfl
    · have hE : (if m < 2 ^ 52 then 0 else (e + 1075).toNat) < 2 ^ 11 := by split <;> omega
      have hb := toBits_ofForm_finite n hpos hm he he'
      rw [ScalarKind.form_finite hpos, kind_of_fields hE (Nat.mod_lt m (by decide)) hb]
      by_cases hs : m < 2 ^ 52
      · obtain rfl : e = -1074 := by omega
        simp only [hs, if_true, Nat.mod_eq_of_lt hs]
        rfl
      · simp only [hs, if_false]
        rw [if_neg (by omega), if_neg (by omega), show 2 ^ 52 + m % 2 ^ 52 = m by omega,
          show ((e + 1075).toNat : Int) - 1075 = e by omega]

/-! ## Signs, finiteness and the missing number -/

theorem kind_neg (x : Float) : kind (-x) = (kind x).neg := by
  change kind (ofForm x.toModel.unpack.neg) = _
  rw [unpack_eq, ScalarKind.neg_form]
  exact kind_ofForm (kind_canonical x).neg

theorem isNaN_iff (x : Float) : x.isNaN = true ↔ kind x = .nan := by
  change x.toModel.unpack.isNaN = true ↔ _
  rw [unpack_eq]
  cases kind x with
  | nan | infinite n => simp [ScalarKind.form, UnpackedFloat.isNaN]
  | finite d => simp only [ScalarKind.form]; split <;> simp [UnpackedFloat.isNaN]

theorem isFinite_iff (x : Float) : x.isFinite = true ↔ ∃ d, kind x = .finite d := by
  change x.toModel.unpack.isFinite = true ↔ _
  rw [unpack_eq]
  cases kind x with
  | nan | infinite n => simp [ScalarKind.form, UnpackedFloat.isFinite]
  | finite d => simp only [ScalarKind.form]; split <;> simp [UnpackedFloat.isFinite]

end Scalar
end BusRegen
