import BusRegen.Flag
import BusRegen.Json.Value
import BusRegen.Decimal.Style
/-!
# Writing JSON

`compact` leaves out all blanks; `pretty` puts every element on a line of its own, indented by two
blanks for each level, and writes an empty array or object as a pair of brackets. A scalar is
written in the `scientific` style, so one that is not finite becomes `null`. In text only quotes,
backslashes and control characters are escaped.
-/
namespace BusRegen.Json

def scalarChars (x : Float) : List Char :=
  if x.isFinite then NumberStyle.scientific.chars x else "null".toList

def integerChars (n : Int) : List Char :=
  if n < 0 then '-' :: Decimal.digits n.natAbs else Decimal.digits n.natAbs

/-- A character of text, escaped if it has to be. -/
def escaped (c : Char) : List Char :=
  match c with
  | '"' => ['\\', '"']
  | '\\' => ['\\', '\\']
  | '\x08' => ['\\', 'b']
  | '\x0c' => ['\\', 'f']
  | '\n' => ['\\', 'n']
  | '\r' => ['\\', 'r']
  | '\t' => ['\\', 't']
  | c =>
    if c.toNat < 32 then
      ['\\', 'u', '0', '0', Nat.digitChar (c.toNat / 16), Nat.digitChar (c.toNat % 16)]
    else [c]

def textChars (s : String) : List Char := '"' :: (s.toList.flatMap escaped ++ ['"'])

mutual

def compact : Json → List Char
  | null => "null".toList
  | bool b => Flag.chars b
  | integer n => integerChars n
  | scalar x => scalarChars x
  | text s => textChars s
  | array items => '[' :: (compactItems items ++ [']'])
  | object fields => '\x7b' :: (compactFields fields ++ ['\x7d'])

def compactItems : List Json → List Char
  | [] => []
  | [v] => compact v
  | v :: rest => compact v ++ ',' :: compactItems rest

def compactFields : List (String × Json) → List Char
  | [] => []
  | [(k, v)] => textChars k ++ ':' :: compact v
  | (k, v) :: rest => textChars k ++ ':' :: (compact v ++ ',' :: compactFields rest)

end

/-- A new line at a level. -/
def newLine (level : Nat) : List Char := '\n' :: List.replicate (2 * level) ' '

mutual

def prettyAt (level : Nat) : Json → List Char
  | null => "null".toList
  | bool b => Flag.chars b
  | integer n => integerChars n
  | scalar x => scalarChars x
  | text s => textChars s
  | array [] => ['[', ']']
  | array (v :: items) => '[' :: (prettyItems (level + 1) (v :: items) ++ newLine level ++ [']'])
  | object [] => ['\x7b', '\x7d']
  | object (f :: fields) =>
    '\x7b' :: (prettyFields (level + 1) (f :: fields) ++ newLine level ++ ['\x7d'])

def prettyItems (level : Nat) : List Json → List Char
  | [] => []
  | [v] => newLine level ++ prettyAt level v
  | v :: rest => newLine level ++ prettyAt level v ++ ',' :: prettyItems level rest

def prettyFields (level : Nat) : List (String × Json) → List Char
  | [] => []
  | [(k, v)] => newLine level ++ textChars k ++ ':' :: ' ' :: prettyAt level v
  | (k, v) :: rest =>
    newLine level ++ textChars k ++ ':' :: ' ' ::
      (prettyAt level v ++ ',' :: prettyFields level rest)

end

def pretty (v : Json) : List Char := prettyAt 0 v

end BusRegen.Json
