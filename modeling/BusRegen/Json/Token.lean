import BusRegen.Flag
import BusRegen.Json.Number
/-!
# JSON tokens

The characters of a text are taken in one at a time (`Lexer.step`), so reading a text is a fold.
A run of letters, digits and signs is one word, and is a number or one of `true`, `false` and
`null`; two of those never stand side by side in a JSON text. Text is between quotes, with the
escapes of JSON; an escape of half a surrogate pair is refused, as is a bare control character.
-/
namespace BusRegen.Json

inductive Token where
  | openArray | closeArray | openObject | closeObject | comma | colon
  | value (v : Json)

/-- The value of a word. -/
def word? (p : Precision) (cs : List Char) : Option Json :=
  match Flag.ofChars? cs with
  | some b => some (.bool b)
  | none => if cs = "null".toList then some .null else (Number.ofChars? cs).bind (·.value? p)

/-! ## Characters -/

def isBlank (c : Char) : Bool := c == ' ' || c == '\n' || c == '\t' || c == '\r'

def isWordChar (c : Char) : Bool := c.isAlphanum || c == '-' || c == '+' || c == '.'

def punctuation? : Char → Option Token
  | '[' => some .openArray
  | ']' => some .closeArray
  | '\x7b' => some .openObject
  | '\x7d' => some .closeObject
  | ',' => some .comma
  | ':' => some .colon
  | _ => none

def simpleEscape? : Char → Option Char
  | '"' => some '"'
  | '\\' => some '\\'
  | '/' => some '/'
  | 'b' => some '\x08'
  | 'f' => some '\x0c'
  | 'n' => some '\n'
  | 'r' => some '\r'
  | 't' => some '\t'
  | _ => none

/-! ## The fold -/

/-- Where in a text the lexer stands. Characters of a token are kept in reverse. -/
inductive Mode where
  | between
  | word (seen : List Char)
  | text (seen : List Char)
  /-- After a backslash; `high` is the first half of a surrogate pair that waits for its second. -/
  | escape (seen : List Char) (high : Option Nat)
  /-- In the digits of `\u`: how many are to come, and their value so far. -/
  | hex (seen : List Char) (high : Option Nat) (left : Nat) (value : Nat)
  /-- After the first half of a surrogate pair, which a backslash has to follow. -/
  | half (seen : List Char) (high : Nat)

/-- The tokens so far, in reverse, and the mode. -/
structure Lexer where
  tokens : List Token := []
  mode : Mode := .between

namespace Lexer

/-- A character outside text and words. -/
def outside (tokens : List Token) (c : Char) : Option Lexer :=
  if isBlank c then some ⟨tokens, .between⟩
  else if c = '"' then some ⟨tokens, .text []⟩
  else if isWordChar c then some ⟨tokens, .word [c]⟩
  else (punctuation? c).map fun t => ⟨t :: tokens, .between⟩

/-- The end of `\u` and its four digits. -/
def codeUnit (tokens : List Token) (seen : List Char) (high : Option Nat) (u : Nat) :
    Option Lexer :=
  let low := 0xDC00 ≤ u ∧ u ≤ 0xDFFF
  match high with
  | some h =>
    if low then
      some ⟨tokens, .text (Char.ofNat (0x10000 + (h - 0xD800) * 0x400 + (u - 0xDC00)) :: seen)⟩
    else none
  | none =>
    if low then none
    else if 0xD800 ≤ u ∧ u ≤ 0xDBFF then some ⟨tokens, .half seen u⟩
    else some ⟨tokens, .text (Char.ofNat u :: seen)⟩

def step (p : Precision) (l : Lexer) (c : Char) : Option Lexer :=
  match l.mode with
  | .between => outside l.tokens c
  | .word seen =>
    if isWordChar c then some { l with mode := .word (c :: seen) }
    else do outside (.value (← word? p seen.reverse) :: l.tokens) c
  | .text seen =>
    if c = '"' then some ⟨.value (.text (String.ofList seen.reverse)) :: l.tokens, .between⟩
    else if c = '\\' then some { l with mode := .escape seen none }
    else if c.toNat < 32 then none
    else some { l with mode := .text (c :: seen) }
  | .escape seen high =>
    if c = 'u' then some { l with mode := .hex seen high 4 0 }
    else
      match high, simpleEscape? c with
      | none, some e => some { l with mode := .text (e :: seen) }
      | _, _ => none
  | .hex seen high left value => do
    let value := value * 16 + (← Decimal.hexValue? c)
    if left ≤ 1 then codeUnit l.tokens seen high value
    else some { l with mode := .hex seen high (left - 1) value }
  | .half seen high => if c = '\\' then some { l with mode := .escape seen (some high) } else none

/-- The tokens at the end of a text, which must not be inside a token with a closing mark. -/
def finish (p : Precision) (l : Lexer) : Option (List Token) :=
  match l.mode with
  | .between => some l.tokens.reverse
  | .word seen => do return (.value (← word? p seen.reverse) :: l.tokens).reverse
  | _ => none

end Lexer

def tokens? (p : Precision) (cs : List Char) : Option (List Token) := do
  (← cs.foldlM (Lexer.step p) {}).finish p

end BusRegen.Json
