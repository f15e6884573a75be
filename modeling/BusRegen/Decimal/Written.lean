import BusRegen.Decimal.Shortest
/-!
# Scalars as people write them

A sign that may be left out, then `inf`, `infinity` or `nan` in any case, or digits with a point
somewhere in them or at either end, and perhaps an exponent. A number too large for a scalar is read
as an infinity.
-/
namespace BusRegen

namespace Decimal

/-- An exponent with its letter; without one it is zero. -/
def writtenExponent? : List Char → Option Int
  | [] => some 0
  | e :: rest =>
    let (negative, ds) := takeSign rest
    if (e = 'e' ∨ e = 'E') ∧ !ds.isEmpty ∧ ds.all isDigit then
      some (if negative then -(ofDigits ds : Int) else ofDigits ds)
    else none

/-- Digits with or without a point, and their exponent. -/
def ofWritten? (cs : List Char) : Option Decimal := do
  let (whole, rest) := cs.span isDigit
  let (fraction, rest) := match rest with
    | '.' :: rest => rest.span isDigit
    | rest => ([], rest)
  if whole.isEmpty && fraction.isEmpty then failure
  return ⟨ofDigits (whole ++ fraction), (← writtenExponent? rest) - fraction.length⟩

end Decimal

namespace Scalar

def ofWritten? (cs : List Char) : Option Float :=
  let (negative, body) := Decimal.takeSign cs
  let name := body.map Char.toLower
  let x? :=
    if name = "inf".toList ∨ name = "infinity".toList then some (infinity false)
    else if name = "nan".toList then some nan
    else (Decimal.ofWritten? body).map Decimal.toFloat
  x?.map fun x => if negative then -x else x

end Scalar
end BusRegen
