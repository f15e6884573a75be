/-!
# Scalars

Voltages (V), currents (A) and times (s) are binary64 `Float`s, and every formula of the library is
evaluated in the order in which it is written. A comparison with a NaN is false, so each definition
here says by its branches what a NaN does: `clamp` lets it through, `larger` and `smaller` drop it.

`Dyadic` is the exact value of a finite scalar. Everything that has to be exact about a number (its
decimal text, the nanoseconds in it, the number of ticks in it) is computed from that value in
integer arithmetic.
-/
namespace BusRegen

-- Powers of integers and naturals are those of the core library, whatever else is in scope.
attribute [default_instance 20000] instPowNat

instance (priority := 20000) powNat : Pow Nat Nat := instPowNat

/-- The value `± mantissa · 2 ^ exponent`; the sign is kept apart because a zero has one. -/
structure Dyadic where
  negative : Bool
  mantissa : Nat
  exponent : Int
  deriving DecidableEq, Repr

namespace Dyadic

/-- The absolute value as a fraction: numerator and denominator, the latter positive. -/
def fraction (d : Dyadic) : Nat × Nat :=
  if 0 ≤ d.exponent then (d.mantissa * 2 ^ d.exponent.toNat, 1)
  else (d.mantissa, 2 ^ (-d.exponent).toNat)

theorem fraction_den_pos (d : Dyadic) : 0 < d.fraction.2 := by
  unfold fraction
  split
  · exact Nat.one_pos
  · exact Nat.two_pow_pos _

end Dyadic

/-- The quotient rounded to the nearest natural number, a half going to the even neighbour. -/
def roundHalfEven (num den : Nat) : Nat :=
  let q := num / den
  let r := num % den
  if 2 * r < den then q
  else if den < 2 * r then q + 1
  else q + q % 2

/-- The quotient rounded to the nearest natural number, a half going up. -/
def roundHalfUp (num den : Nat) : Nat := (2 * num + den) / (2 * den)

theorem roundHalfEven_one (n : Nat) : roundHalfEven n 1 = n := by
  simp [roundHalfEven, Nat.mod_one]

/-- A rounded quotient is within half a unit of the quotient. -/
theorem roundHalfEven_near (num den : Nat) (h : 0 < den) :
    2 * (roundHalfEven num den * den) ≤ 2 * num + den ∧
      2 * num ≤ 2 * (roundHalfEven num den * den) + den := by
  have hq : den * (num / den) + num % den = num := Nat.div_add_mod num den
  have hr : num % den < den := Nat.mod_lt num h
  unfold roundHalfEven
  generalize num / den = q at hq
  generalize num % den = r at hq hr
  subst hq
  have hpar : q % 2 = 0 ∨ q % 2 = 1 := by omega
  simp only
  split
  · rw [Nat.mul_comm q den]; omega
  · split
    · rw [Nat.add_mul, Nat.mul_comm q den]; omega
    · rcases hpar with hp | hp <;> rw [hp] <;> rw [Nat.add_mul, Nat.mul_comm q den] <;> omega

/-- What a scalar is: no number, an infinity, or a number with an exact value. -/
inductive ScalarKind where
  | nan
  | infinite (negative : Bool)
  | finite (value : Dyadic)
  deriving DecidableEq, Repr

namespace Scalar

def nan : Float := Float.ofBits 0x7ff8000000000000

def infinity (negative : Bool) : Float :=
  Float.ofBits (if negative then 0xfff0000000000000 else 0x7ff0000000000000)

def zero (negative : Bool) : Float :=
  Float.ofBits (if negative then 0x8000000000000000 else 0)

/-- Reads the three fields of the bit pattern: sign, eleven bits of exponent, 52 of fraction. -/
def kind (x : Float) : ScalarKind :=
  let bits := x.toBits.toNat
  let negative := bits / 2 ^ 63 == 1
  let exponent : Nat := bits / 2 ^ 52 % 2 ^ 11
  let fraction := bits % 2 ^ 52
  if exponent = 2047 then
    if fraction = 0 then .infinite negative else .nan
  else if exponent = 0 then .finite ⟨negative, fraction, -1074⟩
  else .finite ⟨negative, 2 ^ 52 + fraction, Int.ofNat exponent - 1075⟩

/-- Limits a scalar to `low … high`, one bound after the other; a NaN stays a NaN. -/
def clamp (low high x : Float) : Float :=
  let y := if x < low then low else x
  if high < y then high else y

/-- `clamp` under bounds that may be none: there is no answer unless `low ≤ high`. -/
def clamp? (low high x : Float) : Option Float :=
  if low ≤ high then some (clamp low high x) else none

/-- The larger of two scalars and, of two equal ones, the second. A NaN gives way to the other. -/
def larger (x y : Float) : Float :=
  if y.isNaN then x else if y < x then x else y

/-- The smaller of two scalars and, of two equal ones, the second. A NaN gives way to the other. -/
def smaller (x y : Float) : Float :=
  if y.isNaN then x else if x < y then x else y

/-- The natural number nearest to a scalar, a half going up. It is zero for a negative scalar and
for one that is not finite. -/
def nearestNat (x : Float) : Nat :=
  match kind x with
  | .finite d => if d.negative then 0 else roundHalfUp d.fraction.1 d.fraction.2
  | _ => 0

end Scalar

end BusRegen
