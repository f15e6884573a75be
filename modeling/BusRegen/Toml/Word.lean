import BusRegen.Decimal.Shortest
import BusRegen.Flag
import BusRegen.Toml.Time
import BusRegen.Toml.Value
/-!
# Words of TOML as values

A word is a flag, a number, or a date or time. The digits of a number may be grouped by
underscores, each between two digits, and a decimal number does not begin with a superfluous zero.
A number with a fraction or an exponent is a scalar, and a whole number is an integer.

A number that is too large for a scalar or for a word of 128 bits is a misfit, and so is a word that
only looks like a number: the mark of a base without digits, or a whole number with groups that are
not of decimal digits.
-/
namespace BusRegen.Toml

/-- Grouped digits without the underscores. -/
def ungroup? (isDigit : Char → Bool) : List Char → Option (List Char)
  | [] => none
  | [c] => if isDigit c then some [c] else none
  | c :: '_' :: rest => if isDigit c then (c :: ·) <$> ungroup? isDigit rest else none
  | c :: rest => if isDigit c then (c :: ·) <$> ungroup? isDigit rest else none

/-- The number of a digit string in a base up to 16. -/
def ofBase? (base : Nat) (cs : List Char) : Option Nat := do
  let ds ← ungroup? (fun c => (Decimal.hexValue? c).any (· < base)) cs
  return ds.foldl (fun n c => n * base + (Decimal.hexValue? c).getD 0) 0

/-- Grouped decimal digits without a superfluous zero in front. -/
def whole? (cs : List Char) : Option (List Char) := do
  let ds ← ungroup? Decimal.isDigit cs
  if Decimal.isWhole ds then return ds else failure

def integer? (cs : List Char) : Option Int :=
  match cs with
  | '0' :: 'x' :: ds => (ofBase? 16 ds).map Int.ofNat
  | '0' :: 'o' :: ds => (ofBase? 8 ds).map Int.ofNat
  | '0' :: 'b' :: ds => (ofBase? 2 ds).map Int.ofNat
  | cs => do
    let (negative, ds) := Decimal.takeSign cs
    let n := Decimal.ofDigits (← whole? ds)
    return if negative then -(n : Int) else n

/-- An exponent with its letter. -/
def exponent? : List Char → Option Int
  | [] => some 0
  | e :: rest =>
    if e = 'e' ∨ e = 'E' then do
      let (negative, ds) := Decimal.takeSign rest
      let n := Decimal.ofDigits (← ungroup? Decimal.isDigit ds)
      return if negative then -(n : Int) else n
    else none

def isGrouped (c : Char) : Bool := Decimal.isDigit c || c == '_'

/-- A decimal number without a sign. -/
def decimal? (cs : List Char) : Option Decimal := do
  let (whole, rest) := cs.span isGrouped
  let ds ← whole? whole
  match rest with
  | '.' :: rest =>
    let (fraction, rest) := rest.span isGrouped
    let fs ← ungroup? Decimal.isDigit fraction
    return ⟨Decimal.ofDigits (ds ++ fs), (← exponent? rest) - fs.length⟩
  | rest => return ⟨Decimal.ofDigits ds, ← exponent? rest⟩

def scalar? (cs : List Char) : Option Toml :=
  let (negative, body) := Decimal.takeSign cs
  let signed (x : Float) : Toml := .scalar (if negative then -x else x)
  if body = "inf".toList then some (signed (Scalar.infinity false))
  else if body = "nan".toList then some (signed Scalar.nan)
  else (decimal? body).map fun d => if d.toFloat.isFinite then signed d.toFloat else .misfit

/-- Whether an integer fits a word of 128 bits, with or without a sign. -/
def fitsWord (n : Int) : Bool := -2 ^ 127 ≤ n && n < 2 ^ 128

def isHexDigit (c : Char) : Bool := (Decimal.hexValue? c).isSome

/-- Whether every underscore stands between two hexadecimal digits. -/
def groupsMeet : List Char → Bool
  | [] => true
  | c :: '_' :: rest => isHexDigit c && rest.head?.any isHexDigit && groupsMeet rest
  | _ :: rest => groupsMeet rest

/-- Whether the first group is a whole decimal number and nothing speaks of a scalar. -/
def looksGrouped (cs : List Char) : Bool :=
  let (whole, rest) := cs.span Decimal.isDigit
  Decimal.isWhole whole && whole.head? != some '0' && rest.head? == some '_' &&
    !rest.any (['.', 'e', 'E', ' '].contains ·) && groupsMeet cs

def looksLikeNumber (cs : List Char) : Bool :=
  ["0x".toList, "0o".toList, "0b".toList].contains cs || looksGrouped (Decimal.takeSign cs).2

/-- The value of a word. -/
def word? (cs : List Char) : Option Toml :=
  match Flag.ofChars? cs, integer? cs, scalar? cs with
  | some b, _, _ => some (.flag b)
  | none, some n, _ => some (if fitsWord n then .integer n else .misfit)
  | none, none, some v => some v
  | none, none, none =>
    if isTime cs then some .time else if looksLikeNumber cs then some .misfit else none

end BusRegen.Toml
