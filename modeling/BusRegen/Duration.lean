import BusRegen.Scalar
import BusRegen.Decimal.Digits
/-!
# Durations

A duration is a whole number of nanoseconds below `2 ^ 64` seconds. `seconds` is the scalar for
formulas; `ofSeconds?` goes the other way, to the nearest nanosecond with a half going to the even
one, and refuses what is negative, too long or no number. `text` is the form for messages: in the
largest of the units s, ms, µs and ns that leaves a whole part, without zeros at the end.
-/
namespace BusRegen

structure Duration where
  nanoseconds : Nat
  lt_limit : nanoseconds < 2 ^ 64 * 10 ^ 9
  deriving DecidableEq, Repr

namespace Duration

def zero : Duration := ⟨0, by decide⟩

instance : Inhabited Duration := ⟨zero⟩

def isZero (d : Duration) : Bool := d.nanoseconds == 0

def ofNanoseconds? (n : Nat) : Option Duration :=
  if h : n < 2 ^ 64 * 10 ^ 9 then some ⟨n, h⟩ else none

/-- `from_micros`: a number of microseconds that fits a 64-bit word. -/
def ofMicroseconds (us : UInt64) : Duration :=
  ⟨us.toNat * 1000, by have := us.toNat_lt; omega⟩

/-- `as_secs_f64`: whole seconds as a scalar, plus the rest as a scalar. -/
def seconds (d : Duration) : Float :=
  Float.ofNat (d.nanoseconds / 10 ^ 9) + Float.ofNat (d.nanoseconds % 10 ^ 9) / 1e9

/-- `as_micros`: the whole microseconds, as the 64-bit word that records hold. -/
def microseconds (d : Duration) : UInt64 := UInt64.ofNat (d.nanoseconds / 1000)

/-- `try_from_secs_f64`: the duration nearest to a number of seconds. -/
def ofSeconds? (x : Float) : Option Duration :=
  match Scalar.kind x with
  | .finite v =>
    if v.negative && v.mantissa != 0 then none
    else ofNanoseconds? (roundHalfEven (v.fraction.1 * 10 ^ 9) v.fraction.2)
  | _ => none

/-- `whole` and a fraction of `places` digits, without the zeros at the end of the fraction. -/
def trimmed (places whole fraction : Nat) : List Char :=
  let ds := (Decimal.padded places fraction).reverse.dropWhile (· == '0')
  Decimal.digits whole ++ if fraction = 0 then [] else '.' :: ds.reverse

def chars (d : Duration) : List Char :=
  let n := d.nanoseconds
  if 10 ^ 9 ≤ n then trimmed 9 (n / 10 ^ 9) (n % 10 ^ 9) ++ ['s']
  else if 10 ^ 6 ≤ n then trimmed 6 (n / 10 ^ 6) (n % 10 ^ 6) ++ ['m', 's']
  else if 1000 ≤ n then trimmed 3 (n / 1000) (n % 1000) ++ ['µ', 's']
  else Decimal.digits n ++ ['n', 's']

def text (d : Duration) : String := String.ofList d.chars

theorem nanoseconds_ofMicroseconds (us : UInt64) :
    (ofMicroseconds us).nanoseconds = us.toNat * 1000 := rfl

end Duration
end BusRegen
