import BusRegen.Decimal.Fixed
import BusRegen.Decimal.Written
import BusRegen.Proofs.Decimal.Layout
/-!
# What a scalar with a fixed number of places says

The digits of `fixedChars` are those of a whole number of units in the last place, with the point put
where that place is (`ofWritten?_pointed`). The number of units is the exact value rounded, so what is
written differs from it by half a unit at most, however large the value is (`abs_units_sub_le`). The
names of the other scalars are not read as numbers. `Reading` is what can be got back from such a text,
and `Reading.Tells` what it says about a scalar.
-/
namespace BusRegen.Decimal

open Scalar

/-! ## Digits at a place -/

theorem isDigit_of_mem_padded {width n : Nat} {c : Char} (h : c ∈ padded width n) :
    isDigit c = true := by
  rcases List.mem_append.1 h with h | h
  · exact isDigit_of_mem_zeros h
  · exact isDigit_of_mem_digits n c h

/-- A number that fits is filled up to the width. -/
theorem length_padded {width n : Nat} (hwidth : 0 < width) (h : n < 10 ^ width) :
    (padded width n).length = width := by
  have hcount : digitCount n ≤ width := by
    rcases Nat.eq_zero_or_pos n with rfl | hpos
    · rw [digitCount, if_pos (by decide)]
      exact hwidth
    · obtain ⟨hle, -, -⟩ := digitCount_bounds hpos
      have hlt := (Nat.pow_lt_pow_iff_right (by decide)).1 (hle.trans_lt h)
      omega
  rw [padded, List.length_append, List.length_replicate, length_digits]
  omega

/-! ## Reading digits with a point -/

theorem ofWritten?_pointed (places u : Nat) :
    ofWritten? (pointed places u) = some ⟨u, -(places : Int)⟩ := by
  have hwhole := isDigit_of_mem_digits (u / 10 ^ places)
  have hne : (digits (u / 10 ^ places)).isEmpty = false :=
    List.isEmpty_eq_false_iff.2 (digits_ne_nil _)
  rcases Nat.eq_zero_or_pos places with rfl | hplaces
  · have hspan := span_eq_self hwhole
    simp only [ofWritten?, pointed, if_true, hspan, hne, writtenExponent?]
    simp [ofDigits_digits]
  · have hfraction : u % 10 ^ places < 10 ^ places := Nat.mod_lt _ (Nat.pow_pos (by decide))
    have hspan : (digits (u / 10 ^ places) ++ '.' :: padded places (u % 10 ^ places)).span isDigit =
        (digits (u / 10 ^ places), '.' :: padded places (u % 10 ^ places)) :=
      span_append hwhole (by simp; decide)
    have hrest : (padded places (u % 10 ^ places)).span isDigit =
        (padded places (u % 10 ^ places), []) :=
      span_eq_self fun c hc => isDigit_of_mem_padded hc
    simp only [ofWritten?, pointed, if_neg hplaces.ne', hspan, hrest, hne, writtenExponent?,
      Bool.false_and]
    simp only [ofDigits_append, ofDigits_digits, ofDigits_padded,
      length_padded hplaces hfraction, Nat.div_add_mod']
    simp

/-! ## Rounded to a place -/

/-- A number of units in the last place is within half a unit of what it was rounded from. -/
theorem abs_units_sub_le (places : Nat) (d : Dyadic) :
    |value ⟨units places d, -(places : Int)⟩ - d.magnitude| ≤ 1 / (2 * 10 ^ places) := by
  have hden := d.fraction_den_pos
  have hnear := roundHalfEven_near (d.fraction.1 * 10 ^ places) d.fraction.2 hden
  rw [d.magnitude_eq_fraction, value, units, zpow_neg, zpow_natCast, ← div_eq_mul_inv]
  generalize roundHalfEven (d.fraction.1 * 10 ^ places) d.fraction.2 = u at hnear ⊢
  generalize d.fraction.1 = num at hnear ⊢
  generalize d.fraction.2 = den at hden hnear ⊢
  have hlow : (2 : ℚ) * (u * den) ≤ 2 * (num * 10 ^ places) + den := by exact_mod_cast hnear.1
  have hhigh : (2 : ℚ) * (num * 10 ^ places) ≤ 2 * (u * den) + den := by exact_mod_cast hnear.2
  have hdiff : |(u : ℚ) * den - 10 ^ places * num| ≤ den / 2 :=
    abs_le.2 ⟨by linarith, by linarith⟩
  have hden' : (0 : ℚ) < den := by exact_mod_cast hden
  have hplaces : (0 : ℚ) < 10 ^ places := by positivity
  calc |(u : ℚ) / 10 ^ places - num / den|
      = |(u : ℚ) * den - 10 ^ places * num| / (10 ^ places * den) := by
        rw [div_sub_div _ _ hplaces.ne' hden'.ne', abs_div, abs_of_pos (mul_pos hplaces hden')]
    _ ≤ (den / 2) / (10 ^ places * den) := by gcongr
    _ = 1 / (2 * 10 ^ places) := by field_simp

/-! ## What can be read -/

/-- What a text with a fixed number of places is read as. -/
inductive Reading where
  | nan
  | infinite (negative : Bool)
  | number (q : ℚ)
  deriving DecidableEq

namespace Reading

/-- One of the names, or a number with a sign. -/
def ofChars? (cs : List Char) : Option Reading :=
  let (negative, body) := takeSign cs
  if cs = "NaN".toList then some nan
  else if body = "inf".toList then some (infinite negative)
  else (ofWritten? body).map fun d => number (if negative then -d.value else d.value)

/-- The reading names what is no number, or is within half a unit of the last place. -/
def Tells (places : Nat) : Reading → ScalarKind → Prop
  | nan, .nan => True
  | infinite n, .infinite n' => n = n'
  | number q, .finite d => |q - d.value| ≤ 1 / (2 * 10 ^ places)
  | _, _ => False

end Reading

theorem exists_pointed_cons (places u : Nat) :
    ∃ c rest, pointed places u = c :: rest ∧ isDigit c = true := by
  have hdigit := isDigit_of_mem_digits (u / 10 ^ places)
  cases hds : digits (u / 10 ^ places) with
  | nil => exact absurd hds (digits_ne_nil _)
  | cons c rest =>
    have hc := hdigit c (by rw [hds]; exact List.mem_cons_self ..)
    rw [pointed, hds]
    split
    · exact ⟨c, rest, rfl, hc⟩
    · exact ⟨c, _, rfl, hc⟩

theorem takeSign_pointed_units (n : Bool) (places u : Nat) :
    takeSign (signed n (pointed places u)) = (n, pointed places u) := by
  obtain ⟨c, rest, heq, hc⟩ := exists_pointed_cons places u
  rw [heq]
  cases n with
  | true => rfl
  | false => exact takeSign_digit hc rest

/-- Whatever a scalar is, its text says so. -/
theorem reading_fixedChars (places : Nat) (x : Float) :
    ∃ r, Reading.ofChars? (fixedChars places x) = some r ∧ r.Tells places (kind x) := by
  rw [fixedChars]
  cases kind x with
  | nan => exact ⟨.nan, rfl, trivial⟩
  | infinite n => exact ⟨.infinite n, by cases n <;> rfl, rfl⟩
  | finite d =>
    obtain ⟨c, rest, heq, hc⟩ := exists_pointed_cons places (units places d)
    have hnan : signed d.negative (pointed places (units places d)) ≠ "NaN".toList := by
      rw [heq]
      cases d.negative with
      | true => simp [signed]
      | false =>
        rintro h
        rw [(List.cons.inj h).1] at hc
        exact absurd hc (by decide)
    have hinf : pointed places (units places d) ≠ "inf".toList := by
      rw [heq]
      rintro h
      rw [(List.cons.inj h).1] at hc
      exact absurd hc (by decide)
    have hread : Reading.ofChars? (signed d.negative (pointed places (units places d))) =
        some (.number (if d.negative then -value ⟨units places d, -(places : Int)⟩
          else value ⟨units places d, -(places : Int)⟩)) := by
      simp only [Reading.ofChars?, takeSign_pointed_units, if_neg hnan, if_neg hinf,
        ofWritten?_pointed, Option.map_some]
    have hnear := abs_units_sub_le places d
    refine ⟨_, hread, ?_⟩
    rw [Reading.Tells, Dyadic.value]
    cases d.negative with
    | true => rwa [if_pos rfl, if_pos rfl, neg_sub_neg, abs_sub_comm]
    | false => exact hnear

/-! ## The characters -/

/-- A character of a scalar with a fixed number of places. -/
def isFixedChar (c : Char) : Bool := isDigit c || "NaNinf-.".toList.contains c

theorem isFixedChar_of_mem {places : Nat} {x : Float} {c : Char} (h : c ∈ fixedChars places x) :
    isFixedChar c = true := by
  have hsigned {n : Bool} {cs : List Char} (hcs : ∀ c ∈ cs, isFixedChar c = true)
      (hc : c ∈ signed n cs) : isFixedChar c = true := by
    cases n with
    | true =>
      rcases List.mem_cons.1 hc with rfl | hc
      · rfl
      · exact hcs c hc
    | false => exact hcs c hc
  have hdigit {c : Char} (hc : isDigit c = true) : isFixedChar c = true := by
    rw [isFixedChar, hc, Bool.true_or]
  have hnan : ∀ c ∈ "NaN".toList, isFixedChar c = true := List.all_eq_true.1 rfl
  have hinf : ∀ c ∈ "inf".toList, isFixedChar c = true := List.all_eq_true.1 rfl
  rw [fixedChars] at h
  cases hk : kind x with
  | nan =>
    rw [hk] at h
    exact hnan c h
  | infinite n =>
    rw [hk] at h
    exact hsigned hinf h
  | finite d =>
    rw [hk] at h
    refine hsigned (fun c hc => ?_) h
    rw [pointed] at hc
    split at hc
    · exact hdigit (isDigit_of_mem_digits _ c hc)
    · rcases List.mem_append.1 hc with hc | hc
      · exact hdigit (isDigit_of_mem_digits _ c hc)
      · rcases List.mem_cons.1 hc with rfl | hc
        · rfl
        · exact hdigit (isDigit_of_mem_padded hc)

end BusRegen.Decimal
