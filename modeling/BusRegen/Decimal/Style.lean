import BusRegen.Decimal.Shortest
/-!
# How a shortest decimal is laid out

The digits of a scalar are those of `Decimal.shortest`; a `NumberStyle` says how they are laid out.
There are three styles: `plain` in messages, `marked` in settings files, where a whole number shows
that it is a scalar by `.0`, and `scientific` in records, where very large and very small numbers
have an exponent.
-/
namespace BusRegen

structure NumberStyle where
  /-- A whole number gets `.0`. -/
  wholeMark : Bool
  /-- Whether a number whose first digit stands for `10 ^ p` is written without an exponent. -/
  positional : Int → Bool
  /-- Which of two equally short and close decimals is written. -/
  tie : Tie
  nanText : String

namespace NumberStyle

def plain : NumberStyle := ⟨false, fun _ => true, .up, "NaN"⟩

def marked : NumberStyle := ⟨true, fun _ => true, .up, "nan"⟩

def scientific : NumberStyle := ⟨true, fun p => -5 ≤ p && p < 16, .even, "null"⟩

/-- Digits with the point after the first `whole` of them, filled up with zeros on either side. -/
def positionalChars (style : NumberStyle) (ds : List Char) (whole : Int) : List Char :=
  if whole ≤ 0 then '0' :: '.' :: (List.replicate (-whole).toNat '0' ++ ds)
  else
    let fill := List.replicate (whole.toNat - ds.length) '0'
    let fraction := ds.drop whole.toNat
    let mark :=
      if !fraction.isEmpty then '.' :: fraction
      else if style.wholeMark then ['.', '0']
      else []
    ds.take whole.toNat ++ fill ++ mark

/-- The first digit, a point if more follow, and the exponent with its sign. -/
def scientificChars (ds : List Char) (p : Int) : List Char :=
  let mantissa := match ds with
    | d :: rest => if rest.isEmpty then [d] else d :: '.' :: rest
    | [] => []
  mantissa ++ 'e' :: (if p < 0 then '-' else '+') :: Decimal.digits p.natAbs

/-- The digits of a decimal in the given style. -/
def layout (style : NumberStyle) (d : Decimal) : List Char :=
  let ds := Decimal.digits d.coefficient
  let p := ds.length + d.exponent - 1
  if style.positional p then style.positionalChars ds (p + 1) else scientificChars ds p

def chars (style : NumberStyle) (x : Float) : List Char :=
  match Scalar.kind x with
  | .nan => style.nanText.toList
  | .infinite negative => if negative then "-inf".toList else "inf".toList
  | .finite d =>
    let body :=
      if d.mantissa = 0 then if style.wholeMark then ['0', '.', '0'] else ['0']
      else style.layout (Decimal.shortest style.tie d x.abs)
    if d.negative then '-' :: body else body

end NumberStyle

/-- The text of a scalar in messages. -/
def showScalar (x : Float) : String := String.ofList (NumberStyle.plain.chars x)

end BusRegen
