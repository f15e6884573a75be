import BusRegen.Scalar
/-!
# Numbers and text as bytes

Words are little-endian and of fixed width, a scalar is the word of its bit pattern, a flag is one
byte, and text is its length in eight bytes followed by its UTF-8 form. Each reader takes its
value from the front of a byte string and gives the rest, and fails where the bytes run out or are
not what the writer writes.
-/
namespace BusRegen.Bytes

/-- Takes a value from the front of a byte string. -/
abbrev Reader (α : Type) := StateT (List UInt8) Option α

/-- The `width` low bytes of a number, the lowest first. -/
def le : (width : Nat) → Nat → List UInt8
  | 0, _ => []
  | width + 1, n => UInt8.ofNat (n % 256) :: le width (n / 256)

def byte : Reader UInt8
  | [] => none
  | b :: rest => some (b, rest)

/-- A number of `width` bytes. -/
def word : (width : Nat) → Reader Nat
  | 0 => pure 0
  | width + 1 => do
    let low ← byte
    let high ← word width
    return low.toNat + 256 * high

/-- The next `n` bytes. -/
def chunk (n : Nat) : Reader (List UInt8) := fun bs =>
  let taken := bs.take n
  if taken.length = n then some (taken, bs.drop n) else none

def writeScalar (x : Float) : List UInt8 := le 8 x.toBits.toNat

def scalar : Reader Float := do return Float.ofBits (UInt64.ofNat (← word 8))

def writeFlag (b : Bool) : List UInt8 := [if b then 1 else 0]

def flag : Reader Bool := do
  match ← byte with
  | 0 => return false
  | 1 => return true
  | _ => failure

def writeText (s : String) : List UInt8 := le 8 s.utf8ByteSize ++ s.toUTF8.toList

def text : Reader String := do
  let n ← word 8
  let bs ← chunk n
  String.fromUTF8? (ByteArray.mk bs.toArray)

theorem length_le (width n : Nat) : (le width n).length = width := by
  induction width generalizing n with
  | zero => rfl
  | succ w ih => simp [le, ih]

end BusRegen.Bytes
