import BusRegen.Toml.Token
/-!
# Keys of TOML

A key is a path: up to 80 parts with dots between them, and blanks around the parts and dots. A part
is bare, of letters, digits, `_` and `-`, or text on one line.
-/
namespace BusRegen.Toml

inductive KeyItem where
  | part (s : String)
  | dot
  deriving DecidableEq, Repr

def isBare (c : Char) : Bool := c.isAlphanum || c == '_' || c == '-'

/-- The part that a run of characters without dots, in reverse, makes; none makes no part. -/
def barePart? (seen : List Char) : Option (List KeyItem) :=
  if seen.isEmpty then some []
  else if seen.all isBare then some [.part (String.ofList seen.reverse)]
  else none

/-- The parts and dots of a word, after the characters of a part that have been seen. -/
def wordItems? (seen : List Char) : List Char → Option (List KeyItem)
  | [] => barePart? seen
  | c :: rest =>
    if c = '.' then do return (← barePart? seen) ++ .dot :: (← wordItems? [] rest)
    else wordItems? (c :: seen) rest

def tokenItems? : Token → Option (List KeyItem)
  | .space | .tab => some []
  | .word cs => wordItems? [] cs
  | .text s false => some [.part s]
  | _ => none

/-- The parts, which must alternate with the dots. -/
def alternate? : List KeyItem → Option (List String)
  | [.part s] => some [s]
  | .part s :: .dot :: rest => (s :: ·) <$> alternate? rest
  | _ => none

/-- The number of parts that a path may have. -/
def pathLimit : Nat := 80

def path? (tokens : List Token) : Option (List String) := do
  let path ← alternate? (← tokens.mapM tokenItems?).flatten
  if path.length ≤ pathLimit then return path else failure

end BusRegen.Toml
