import BusRegen.Scalar
import BusRegen.Decimal.Digits
/-!
# The shortest decimal of a scalar

A `Decimal` is `coefficient · 10 ^ exponent`; `toFloat` is the scalar nearest to it. `shortest` is
the decimal with the fewest digits whose nearest scalar is the given one and, among those, the one
closest to it. It tries one, two, … digits: on the grid of decimals with so many digits only the two
neighbours of the value can be closest, and each is tried by reading it back.

`toFloat` first drops the zeros at the end of the coefficient, so decimals that differ only in such
zeros give the same scalar (`toFloat_shift`): however a writer places the point, a reader that
collects all digits gets the same number.
-/
namespace BusRegen

structure Decimal where
  coefficient : Nat
  exponent : Int
  deriving DecidableEq, Repr

/-- Which of two equally close decimals is taken. -/
inductive Tie where
  | up | even
  deriving DecidableEq, Repr

namespace Decimal

/-- The same number without zeros at the end of the coefficient. -/
def trim (coefficient : Nat) (exponent : Int) : Decimal :=
  if h : coefficient ≠ 0 ∧ coefficient % 10 = 0 then trim (coefficient / 10) (exponent + 1)
  else ⟨coefficient, exponent⟩
termination_by coefficient
decreasing_by omega

/-- The scalar nearest to a decimal, an infinity beyond the largest and zero below the least. Both
are decided from the decimal's magnitude if that is far out of range, which spares a huge power. -/
def toFloat (d : Decimal) : Float :=
  let d := trim d.coefficient d.exponent
  let magnitude := digitCount d.coefficient + d.exponent
  if d.coefficient = 0 ∨ magnitude < -400 then Scalar.zero false
  else if 400 < magnitude then Scalar.infinity false
  else Float.ofScientific d.coefficient (d.exponent < 0) d.exponent.natAbs

theorem trim_mul_ten (coefficient : Nat) (exponent : Int) (h : coefficient ≠ 0) :
    trim (coefficient * 10) exponent = trim coefficient (exponent + 1) := by
  rw [trim]
  have : coefficient * 10 ≠ 0 ∧ coefficient * 10 % 10 = 0 := by omega
  rw [dif_pos this, Nat.mul_div_cancel _ (by decide)]

theorem toFloat_mul_ten (coefficient : Nat) (exponent : Int) :
    toFloat ⟨coefficient * 10, exponent⟩ = toFloat ⟨coefficient, exponent + 1⟩ := by
  unfold toFloat
  by_cases h : coefficient = 0
  · subst h; simp [trim]
  · simp only [trim_mul_ten coefficient exponent h]

theorem toFloat_shift (coefficient k : Nat) (exponent : Int) :
    toFloat ⟨coefficient * 10 ^ k, exponent⟩ = toFloat ⟨coefficient, exponent + k⟩ := by
  induction k generalizing exponent with
  | zero => simp
  | succ k ih =>
    rw [Nat.pow_succ, ← Nat.mul_assoc, toFloat_mul_ten, ih]
    congr 2
    omega

/-- The exponent `p` with `10 ^ p ≤ num / den < 10 ^ (p + 1)`, of a positive fraction. -/
def magnitude (num den : Nat) : Int :=
  if den ≤ num then digitCount (num / den) - 1 else - (digitCount ((den - 1) / num) : Int)

/-- Whether `below + 1` is to be preferred to `below` for the value `below + r / m`. -/
def prefersUpper (tie : Tie) (below r m : Nat) : Bool :=
  if 2 * r = m then tie == .up || below % 2 == 1 else m < 2 * r

/-- The two grid points `k · 10 ^ step` next to a fraction, the closer one first. -/
def neighbours (tie : Tie) (num den : Nat) (step : Int) : Decimal × Decimal :=
  let n := num * 10 ^ (-step).toNat
  let m := den * 10 ^ step.toNat
  let lower : Decimal := ⟨n / m, step⟩
  let upper : Decimal := ⟨n / m + 1, step⟩
  if prefersUpper tie (n / m) (n % m) m = true then (upper, lower) else (lower, upper)

/-- The exact value of a fraction whose denominator is a power of two. -/
def exact (num den : Nat) : Decimal := ⟨num * 5 ^ den.log2, - (den.log2 : Int)⟩

/-- Tries grids of `count`, `count + 1`, … digits, `tries` of them. -/
def search (tie : Tie) (x : Float) (num den : Nat) (top : Int) : Nat → Nat → Decimal
  | 0, _ => exact num den
  | tries + 1, count =>
    let points := neighbours tie num den (top - count + 1)
    if points.1.toFloat == x then points.1
    else if points.2.toFloat == x then points.2
    else search tie x num den top tries (count + 1)

/-- The shortest decimal of a positive scalar with the exact value `d`. Seventeen digits always
suffice. -/
def shortest (tie : Tie) (d : Dyadic) (x : Float) : Decimal :=
  let f := d.fraction
  let found := search tie x f.1 f.2 (magnitude f.1 f.2) 17 1
  trim found.coefficient found.exponent

end Decimal

/-- The scalar nearest to an integer. -/
def Scalar.ofInt (n : Int) : Float :=
  let x := Decimal.toFloat ⟨n.natAbs, 0⟩
  if n < 0 then -x else x

end BusRegen
