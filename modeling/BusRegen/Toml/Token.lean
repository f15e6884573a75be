import BusRegen.Decimal.Digits
/-!
# TOML tokens

The characters of a text are taken in one at a time (`Lexer.step`), so reading a text is a fold. A
run of characters that have no meaning of their own is a word: part of a key, a number or a date,
which is for the reader to say. Blanks are tokens too, as a few constructs must not contain any.
Comments are dropped.

Text is between quotes (`basic`, with escapes) or apostrophes (`literal`), one of them if it is on
one line and three of them if it may go over lines; the first newline of the latter is not part of
it.
-/
namespace BusRegen.Toml

inductive Quote where
  | basic | literal
  deriving DecidableEq, Repr

def Quote.char : Quote → Char
  | basic => '"'
  | literal => '\''

inductive Token where
  | word (cs : List Char)
  /-- Text, and whether it may go over lines. -/
  | text (s : String) (block : Bool)
  | openBracket | closeBracket | openBrace | closeBrace | comma | equals
  | space | tab | newline
  deriving DecidableEq, Repr

namespace Token

def isBlank : Token → Bool
  | space | tab => true
  | _ => false

/-- A blank or a newline. -/
def isGap (t : Token) : Bool := t.isBlank || t == newline

end Token

/-- A character that is a token by itself. -/
def punctuation? : Char → Option Token
  | '[' => some .openBracket
  | ']' => some .closeBracket
  | '\x7b' => some .openBrace
  | '\x7d' => some .closeBrace
  | ',' => some .comma
  | '=' => some .equals
  | ' ' => some .space
  | '\t' => some .tab
  | '\n' => some .newline
  | _ => none

/-- A character that may stand in text and comments: all but the control characters, of which only
the tabulator may. -/
def isPrintable (c : Char) : Bool := c == '\t' || (32 ≤ c.toNat && c.toNat != 127)

/-- The character for an escape of one letter. -/
def simpleEscape? : Char → Option Char
  | 'b' => some '\x08'
  | 't' => some '\t'
  | 'n' => some '\n'
  | 'f' => some '\x0c'
  | 'r' => some '\r'
  | 'e' => some '\x1b'
  | '"' => some '"'
  | '\\' => some '\\'
  | _ => none

/-- The number of hexadecimal digits after an escape letter. -/
def codeDigits? : Char → Option Nat
  | 'x' => some 2
  | 'u' => some 4
  | 'U' => some 8
  | _ => none

/-- The character with a code that has one. -/
def charOfCode? (n : Nat) : Option Char :=
  if n.isValidChar then some (Char.ofNat n) else none

/-- Where in a token the next character is; what has been seen is in reverse. -/
inductive Mode where
  | between
  /-- After a carriage return, which a newline has to follow. -/
  | carriage
  | word (seen : List Char)
  | comment
  /-- After the first opening mark of text, or after two of them. -/
  | opening (q : Quote) (twice : Bool)
  | line (q : Quote) (seen : List Char)
  /-- After three opening marks, or a carriage return after them. -/
  | blockStart (q : Quote) (carriage : Bool)
  /-- After so many closing marks in a row, and possibly after a carriage return. -/
  | block (q : Quote) (seen : List Char) (marks : Nat) (carriage : Bool)
  /-- After a backslash. -/
  | escape (block : Bool) (seen : List Char)
  /-- In the digits of an escape, of which so many are left. -/
  | code (block : Bool) (seen : List Char) (left value : Nat)
  /-- After a backslash at the end of a line: blanks and newlines, of which there has to be one, do
  not count. -/
  | folded (seen : List Char) (newline carriage : Bool)

/-- The tokens so far, in reverse, and the mode. -/
structure Lexer where
  tokens : List Token := []
  mode : Mode := .between

namespace Lexer

/-- A character outside text, words and comments. -/
def outside (tokens : List Token) (c : Char) : Lexer :=
  match punctuation? c with
  | some t => ⟨t :: tokens, .between⟩
  | none =>
    if c = '"' then ⟨tokens, .opening .basic false⟩
    else if c = '\'' then ⟨tokens, .opening .literal false⟩
    else if c = '#' then ⟨tokens, .comment⟩
    else if c = '\r' then ⟨tokens, .carriage⟩
    else ⟨tokens, .word [c]⟩

/-- Whether a character ends a word. -/
def endsWord (c : Char) : Bool :=
  (punctuation? c).isSome || c == '"' || c == '\'' || c == '#' || c == '\r'

/-- Text goes on. -/
def inside (block : Bool) (seen : List Char) : Mode :=
  if block then .block .basic seen 0 false else .line .basic seen

def close (tokens : List Token) (seen : List Char) (block : Bool) : List Token :=
  .text (String.ofList seen.reverse) block :: tokens

/-- A character of text on one line. -/
def lineChar (tokens : List Token) (q : Quote) (seen : List Char) (c : Char) : Option Lexer :=
  if c = q.char then some ⟨close tokens seen false, .between⟩
  else if c = '\\' ∧ q = .basic then some ⟨tokens, .escape false seen⟩
  else if isPrintable c then some ⟨tokens, .line q (c :: seen)⟩
  else none

/-- A character of text over lines, after marks that do not close it. -/
def blockChar (tokens : List Token) (q : Quote) (seen : List Char) (c : Char) : Option Lexer :=
  if c = '\\' ∧ q = .basic then some ⟨tokens, .escape true seen⟩
  else if c = '\r' then some ⟨tokens, .block q seen 0 true⟩
  else if c = '\n' ∨ isPrintable c then some ⟨tokens, .block q (c :: seen) 0 false⟩
  else none

/-- Marks of text as its content. -/
def marksOn (q : Quote) (marks : Nat) (seen : List Char) : List Char :=
  List.replicate marks q.char ++ seen

/-- An escape is complete. -/
def escaped (tokens : List Token) (block : Bool) (seen : List Char) (c : Char) : Lexer :=
  ⟨tokens, inside block (c :: seen)⟩

def escapeChar (tokens : List Token) (block : Bool) (seen : List Char) (c : Char) :
    Option Lexer :=
  match simpleEscape? c, codeDigits? c with
  | some e, _ => some (escaped tokens block seen e)
  | none, some n => some ⟨tokens, .code block seen n 0⟩
  | none, none =>
    if !block then none
    else if c = '\n' then some ⟨tokens, .folded seen true false⟩
    else if c = '\r' then some ⟨tokens, .folded seen false true⟩
    else if c = ' ' ∨ c = '\t' then some ⟨tokens, .folded seen false false⟩
    else none

def step (l : Lexer) (c : Char) : Option Lexer :=
  match l.mode with
  | .between => some (outside l.tokens c)
  | .carriage => if c = '\n' then some ⟨.newline :: l.tokens, .between⟩ else none
  | .word seen =>
    some (if endsWord c then outside (.word seen.reverse :: l.tokens) c
      else { l with mode := .word (c :: seen) })
  | .comment =>
    if c = '\n' ∨ c = '\r' then some (outside l.tokens c)
    else if isPrintable c then some l
    else none
  | .opening q false =>
    if c = q.char then some { l with mode := .opening q true } else lineChar l.tokens q [] c
  | .opening q true =>
    some (if c = q.char then { l with mode := .blockStart q false }
      else outside (close l.tokens [] false) c)
  | .line q seen => lineChar l.tokens q seen c
  | .blockStart q false =>
    if c = '\n' then some { l with mode := .block q [] 0 false }
    else if c = '\r' then some { l with mode := .blockStart q true }
    else if c = q.char then some { l with mode := .block q [] 1 false }
    else blockChar l.tokens q [] c
  | .blockStart q true => if c = '\n' then some { l with mode := .block q [] 0 false } else none
  | .block q seen _ true =>
    if c = '\n' then some { l with mode := .block q (c :: seen) 0 false } else none
  | .block q seen marks false =>
    if c = q.char ∧ marks < 4 then some { l with mode := .block q seen (marks + 1) false }
    else if c = q.char then some ⟨close l.tokens (marksOn q 2 seen) true, .between⟩
    else if 3 ≤ marks then some (outside (close l.tokens (marksOn q (marks - 3) seen) true) c)
    else blockChar l.tokens q (marksOn q marks seen) c
  | .escape block seen => escapeChar l.tokens block seen c
  | .code block seen left value => do
    let value := value * 16 + (← Decimal.hexValue? c)
    if left ≤ 1 then return escaped l.tokens block seen (← charOfCode? value)
    else return { l with mode := .code block seen (left - 1) value }
  | .folded seen _ true =>
    if c = '\n' then some { l with mode := .folded seen true false } else none
  | .folded seen newline false =>
    if c = '\n' then some { l with mode := .folded seen true false }
    else if c = '\r' then some { l with mode := .folded seen newline true }
    else if c = ' ' ∨ c = '\t' then some l
    else if !newline then none
    else if c = '"' then some { l with mode := .block .basic seen 1 false }
    else blockChar l.tokens .basic seen c

/-- The tokens at the end of a text, which must not be inside text. -/
def finish (l : Lexer) : Option (List Token) :=
  match l.mode with
  | .between | .comment => some l.tokens.reverse
  | .word seen => some (.word seen.reverse :: l.tokens).reverse
  | .opening _ true => some (close l.tokens [] false).reverse
  | .block q seen marks false =>
    if 3 ≤ marks then some (close l.tokens (marksOn q (marks - 3) seen) true).reverse else none
  | _ => none

end Lexer

def tokens? (cs : List Char) : Option (List Token) := do
  (← cs.foldlM Lexer.step {}).finish

end BusRegen.Toml
