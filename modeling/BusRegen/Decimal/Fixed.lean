import BusRegen.Scalar
import BusRegen.Decimal.Digits
/-!
# Scalars with a fixed number of places

The exact value of a scalar is rounded to the given number of decimal places, a half going to the
even neighbour. The sign is that of the scalar, so a small negative value and a negative zero are
written as `-0.00`. The other values are `NaN`, `inf` and `-inf`.
-/
namespace BusRegen.Decimal

/-- The digits of `units · 10 ^ -places`, with a point if there are places. -/
def pointed (places units : Nat) : List Char :=
  let whole := digits (units / 10 ^ places)
  if places = 0 then whole else whole ++ '.' :: padded places (units % 10 ^ places)

def signed (negative : Bool) (cs : List Char) : List Char :=
  if negative then '-' :: cs else cs

/-- The absolute value of a scalar in units of `10 ^ -places`, rounded. -/
def units (places : Nat) (d : Dyadic) : Nat :=
  roundHalfEven (d.fraction.1 * 10 ^ places) d.fraction.2

def fixedChars (places : Nat) (x : Float) : List Char :=
  match Scalar.kind x with
  | .nan => "NaN".toList
  | .infinite negative => signed negative "inf".toList
  | .finite d => signed d.negative (pointed places (units places d))

def fixed (places : Nat) (x : Float) : String := String.ofList (fixedChars places x)

end BusRegen.Decimal
