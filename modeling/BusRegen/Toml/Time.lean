import BusRegen.Decimal.Digits
/-!
# Dates and times in TOML

Whether a word is a date, a time of day, or both with or without an offset. A minute may have 61
seconds; seconds and their fraction may be left out.
-/
namespace BusRegen.Toml

/-- The number of two digits, if it is at most `most`. -/
def twoDigits? (a b : Char) (most : Nat) : Option Nat :=
  let n := Decimal.ofDigits [a, b]
  if Decimal.isDigit a && Decimal.isDigit b && n ≤ most then some n else none

def isLeapYear (y : Nat) : Bool := y % 4 == 0 && (y % 100 != 0 || y % 400 == 0)

def daysIn (year month : Nat) : Nat :=
  if month = 2 then if isLeapYear year then 29 else 28
  else if month = 4 ∨ month = 6 ∨ month = 9 ∨ month = 11 then 30
  else 31

def isDate : List Char → Bool
  | [y, y', y'', y''', '-', m, m', '-', d, d'] =>
    [y, y', y'', y'''].all Decimal.isDigit &&
      match twoDigits? m m' 12, twoDigits? d d' 31 with
      | some month, some day =>
        1 ≤ month && 1 ≤ day && day ≤ daysIn (Decimal.ofDigits [y, y', y'', y''']) month
      | _, _ => false
  | _ => false

/-- What may follow the seconds. -/
def isFraction : List Char → Bool
  | [] => true
  | '.' :: ds => !ds.isEmpty && ds.all Decimal.isDigit
  | _ => false

/-- What may follow the minutes. -/
def isSeconds : List Char → Bool
  | [] => true
  | ':' :: s :: s' :: rest => (twoDigits? s s' 60).isSome && isFraction rest
  | _ => false

def isTimeOfDay : List Char → Bool
  | h :: h' :: ':' :: m :: m' :: rest =>
    (twoDigits? h h' 23).isSome && (twoDigits? m m' 59).isSome && isSeconds rest
  | _ => false

def isOffset : List Char → Bool
  | [] | ['Z'] | ['z'] => true
  | [s, h, h', ':', m, m'] =>
    (s == '+' || s == '-') && (twoDigits? h h' 23).isSome && (twoDigits? m m' 59).isSome
  | _ => false

def isTimeChar (c : Char) : Bool := Decimal.isDigit c || c == ':' || c == '.'

/-- What may follow a date. -/
def isTimeOfDate : List Char → Bool
  | [] => true
  | c :: rest =>
    let (time, offset) := rest.span isTimeChar
    (c == 'T' || c == 't' || c == ' ') && isTimeOfDay time && isOffset offset

def isTime (cs : List Char) : Bool :=
  isTimeOfDay cs || (isDate (cs.take 10) && isTimeOfDate (cs.drop 10))

end BusRegen.Toml
