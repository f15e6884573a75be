import BusRegen.Json.Value
/-!
# Numbers in JSON texts

A number has digits, none of them a superfluous zero in front, and perhaps a minus, a fraction and
an exponent. It is an integer if it has neither of the latter two and its digits fit a word of 64
bits, and a scalar otherwise, which must be finite.

There are two ways from the digits to a scalar (`Precision`). The `nearest` scalar takes all of
them into account. The `quick` one takes as many of them as fit a word (`takeWord`, which loses none
of a number that fits, as `takeWord_of_lt` says) and scales it by a power of ten; the word, the
power and the result are each rounded, so it may miss the nearest scalar by a little and may even
leave the range.
-/
namespace BusRegen.Json

inductive Precision where
  | nearest | quick
  deriving DecidableEq, Repr

/-- A number as it is written. -/
structure Number where
  negative : Bool
  whole : List Char
  fraction : List Char
  exponent : Int
  /-- Whether there is neither a fraction nor an exponent. -/
  plain : Bool

/-! ## Scalars by word arithmetic -/

/-- Takes digits into a word while it has room for them; also gives those that are left. -/
def takeWord (word : Nat) : List Char → Nat × List Char
  | [] => (word, [])
  | c :: rest =>
    let next := word * 10 + Decimal.digitValue c
    if next < 2 ^ 64 then takeWord next rest else (word, c :: rest)

theorem le_ofDigitsAfter (n : Nat) (cs : List Char) : n ≤ Decimal.ofDigitsAfter n cs := by
  induction cs generalizing n with
  | nil => exact Nat.le_refl n
  | cons c rest ih =>
    have := ih (n * 10 + Decimal.digitValue c)
    unfold Decimal.ofDigitsAfter
    omega

theorem takeWord_of_lt (word : Nat) (cs : List Char)
    (h : Decimal.ofDigitsAfter word cs < 2 ^ 64) :
    takeWord word cs = (Decimal.ofDigitsAfter word cs, []) := by
  induction cs generalizing word with
  | nil => rfl
  | cons c rest ih =>
    have hnext := le_ofDigitsAfter (word * 10 + Decimal.digitValue c) rest
    unfold Decimal.ofDigitsAfter at h ⊢
    unfold takeWord
    rw [if_pos (by omega)]
    exact ih _ h

/-- The largest power of ten that is finite as a scalar. -/
def powerLimit : Nat := 308

/-- A scalar times a power of ten, if that is finite; a division by a large power goes in steps. -/
def scale? (x : Float) (exponent : Int) : Option Float :=
  let power := Decimal.toFloat ⟨1, min exponent.natAbs powerLimit⟩
  if exponent.natAbs ≤ powerLimit then
    let y := if 0 ≤ exponent then x * power else x / power
    if y.isFinite then some y else none
  else if x == 0 then some x
  else if 0 ≤ exponent then none
  else scale? (x / power) (exponent + powerLimit)
termination_by (-exponent).toNat
decreasing_by simp only [powerLimit]; omega

namespace Number

def quick? (n : Number) : Option Float :=
  let (word, lost) := takeWord 0 n.whole
  let (word, spare) := takeWord word n.fraction
  scale? (Float.ofNat word) (n.exponent + lost.length + spare.length - n.fraction.length)

def nearest? (n : Number) : Option Float :=
  let x := Decimal.toFloat
    ⟨Decimal.ofDigits (n.whole ++ n.fraction), n.exponent - n.fraction.length⟩
  if x.isFinite then some x else none

/-- The absolute value as a scalar. -/
def scalar? (n : Number) : Precision → Option Float
  | .nearest => n.nearest?
  | .quick => n.quick?

def value? (n : Number) (p : Precision) : Option Json :=
  let whole := Decimal.ofDigits n.whole
  if n.plain && whole < 2 ^ 64 && !(n.negative && whole == 0) then
    some (.integer (if n.negative then -(whole : Int) else whole))
  else (n.scalar? p).map fun x => .scalar (if n.negative then -x else x)

/-- An exponent at the end of a number: `e`, a sign, digits. -/
def exponent? : List Char → Option Int
  | e :: rest =>
    let (negative, ds) := Decimal.takeSign rest
    if (e = 'e' ∨ e = 'E') ∧ !ds.isEmpty ∧ ds.all Decimal.isDigit then
      some (if negative then -(Decimal.ofDigits ds : Int) else Decimal.ofDigits ds)
    else none
  | [] => none

/-- What follows the digits before the point. -/
def ofRest? (negative : Bool) (whole : List Char) : List Char → Option Number
  | [] => some ⟨negative, whole, [], 0, true⟩
  | '.' :: rest =>
    let (fraction, rest) := rest.span Decimal.isDigit
    if fraction.isEmpty then none
    else if rest.isEmpty then some ⟨negative, whole, fraction, 0, false⟩
    else (exponent? rest).map fun e => ⟨negative, whole, fraction, e, false⟩
  | rest => (exponent? rest).map fun e => ⟨negative, whole, [], e, false⟩

def ofChars? (cs : List Char) : Option Number :=
  let (negative, body) := match cs with
    | '-' :: rest => (true, rest)
    | cs => (false, cs)
  let (whole, rest) := body.span Decimal.isDigit
  if Decimal.isWhole whole then ofRest? negative whole rest else none

end Number
end BusRegen.Json
