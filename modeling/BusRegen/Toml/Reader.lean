import BusRegen.Toml.Key
import BusRegen.Toml.Word
/-!
# Reading TOML

The tokens of a text are cut at the newlines outside brackets into statements: a header, or a key
with its value. The value is built by a machine with a stack of the arrays and inline tables that
are open, of which there may be 80. The statements are then carried out on an empty table, one
after the other.
-/
namespace BusRegen.Toml

/-! ## Values -/

/-- An array (its content in reverse) or inline table that is still open, the latter with the path
that gets the next value. -/
inductive Frame where
  | array (items : List Toml)
  | table (fields : Fields) (path : List String)

/-- What may come next. -/
inductive Expect where
  | value
  /-- A value of an array or its end. -/
  | item
  /-- A key of an inline table, the first tokens of which are given in reverse, or its end. -/
  | key (seen : List Token)
  /-- After a date, perhaps with a space: a time of day after one space, or what follows a value. -/
  | timeOfDay (date : List Char) (spaced : Bool)
  /-- A comma or the end of an array or table. -/
  | separator
  | done (v : Toml)

structure Builder where
  frames : List Frame := []
  expect : Expect := .value

namespace Builder

def depthLimit : Nat := 80

/-- A value is complete. -/
def complete? (frames : List Frame) (v : Toml) : Option Builder :=
  match frames with
  | [] => some ⟨[], .done v⟩
  | .array items :: rest => some ⟨.array (v :: items) :: rest, .separator⟩
  | .table fields path :: rest => do
    return ⟨.table (← put? v path fields) [] :: rest, .separator⟩

def close? (frames : List Frame) (t : Token) : Option Builder :=
  match frames, t with
  | .array items :: rest, .closeBracket => complete? rest (.array items.reverse)
  | .table fields _ :: rest, .closeBrace => complete? rest (.table .inline fields)
  | _, _ => none

def openFrame? (frames : List Frame) (f : Frame) (expect : Expect) : Option Builder :=
  if frames.length < depthLimit then some ⟨f :: frames, expect⟩ else none

/-- A token where a value is due. -/
def begin? (frames : List Frame) : Token → Option Builder
  | .word cs =>
    if isDate cs then some ⟨frames, .timeOfDay cs false⟩ else do complete? frames (← word? cs)
  | .text s _ => complete? frames (.text s)
  | .openBracket => openFrame? frames (.array []) .item
  | .openBrace => openFrame? frames (.table [] []) (.key [])
  | _ => none

/-- A token of a key or where a key is due. There may be newlines on both sides of the key. -/
def keyToken? (frames : List Frame) (seen : List Token) (t : Token) : Option Builder :=
  match t, seen with
  | .space, [] | .tab, [] | .newline, [] => some ⟨frames, .key []⟩
  | .closeBrace, [] => close? frames t
  | .equals, seen =>
    match frames with
    | .table fields _ :: rest => do
      return ⟨.table fields (← path? (seen.dropWhile Token.isGap).reverse) :: rest, .value⟩
    | _ => none
  | t, seen => some ⟨frames, .key (t :: seen)⟩

def separator? (frames : List Frame) (t : Token) : Option Builder :=
  match t, frames with
  | .comma, .array _ :: _ => some ⟨frames, .item⟩
  | .comma, .table .. :: _ => some ⟨frames, .key []⟩
  | t, frames => close? frames t

/-- A token after a value. -/
def follow? (b : Builder) (t : Token) : Option Builder :=
  match b.expect with
  | .separator => if t.isGap then some b else separator? b.frames t
  | .done _ => if t.isBlank then some b else none
  | _ => none

/-- A token after a date. -/
def afterDate? (frames : List Frame) (date : List Char) (spaced : Bool) (t : Token) :
    Option Builder :=
  match t, spaced with
  | .space, false => some ⟨frames, .timeOfDay date true⟩
  | .word cs, true => do complete? frames (← word? (date ++ ' ' :: cs))
  | t, _ => do (← complete? frames .time).follow? t

def step (b : Builder) (t : Token) : Option Builder :=
  match b.expect with
  | .value => if t.isGap then some b else begin? b.frames t
  | .item =>
    if t.isGap then some b
    else (close? b.frames t).or (begin? b.frames t)
  | .key seen => keyToken? b.frames seen t
  | .timeOfDay date spaced => afterDate? b.frames date spaced t
  | .separator | .done _ => follow? b t

def finish (b : Builder) : Option Toml :=
  match b.expect, b.frames with
  | .done v, _ => some v
  | .timeOfDay .., [] => some .time
  | _, _ => none

end Builder

def value? (tokens : List Token) : Option Toml := do
  (← tokens.foldlM Builder.step {}).finish

/-! ## Statements -/

inductive Statement where
  | nothing
  | header (path : List String)
  /-- The header of a table of an array. -/
  | element (path : List String)
  | entry (path : List String) (v : Toml)

/-- How many brackets and braces are open after a token. -/
def nesting (open_ : Nat) : Token → Nat
  | .openBracket | .openBrace => open_ + 1
  | .closeBracket | .closeBrace => open_ - 1
  | _ => open_

/-- The tokens of each statement, of the first after those already seen. -/
def cut (open_ : Nat) (seen : List Token) : List Token → List (List Token)
  | [] => [seen.reverse]
  | t :: rest =>
    if t == .newline && open_ == 0 then seen.reverse :: cut 0 [] rest
    else cut (nesting open_ t) (t :: seen) rest

/-- Tokens without the blanks at both ends. -/
def trim (tokens : List Token) : List Token :=
  ((tokens.dropWhile Token.isBlank).reverse.dropWhile Token.isBlank).reverse

namespace Statement

/-- A header of a table of an array, from its tokens after the opening brackets. -/
def element? (tokens : List Token) : Option Statement :=
  match tokens.reverse with
  | .closeBracket :: .closeBracket :: inner => do return .element (← path? inner.reverse)
  | _ => none

def header? (tokens : List Token) : Option Statement :=
  match tokens.reverse with
  | .closeBracket :: inner => do return .header (← path? inner.reverse)
  | _ => none

def entry? (tokens : List Token) : Option Statement :=
  match tokens.dropWhile (· != .equals) with
  | .equals :: rest => do
    return .entry (← path? (tokens.takeWhile (· != .equals))) (← value? rest)
  | _ => none

def ofTokens? (tokens : List Token) : Option Statement :=
  match trim tokens with
  | [] => some .nothing
  | .openBracket :: .openBracket :: rest => element? rest
  | .openBracket :: rest => header? rest
  | tokens => entry? tokens

end Statement

/-! ## Documents -/

/-- What the statements so far have made, and the path of the last header. -/
structure Document where
  root : Fields := []
  current : List String := []

namespace Document

/-- Changes the value at a path of headers. -/
def alterAt? (d : Document) (change : Option Toml → Option Toml) (path : List String) :
    Option Document :=
  match path.reverse with
  | [] => none
  | key :: parents => do
    return ⟨← within? (alter? change key) parents.reverse d.root, path⟩

def carryOut? (d : Document) : Statement → Option Document
  | .nothing => some d
  | .header path => d.alterAt? openTable path
  | .element path => d.alterAt? openElement path
  | .entry path v => do return { d with root := ← within? (put? v path) d.current d.root }

end Document

/-- The text after a byte order mark, if it begins with one. -/
def afterMark : List Char → List Char
  | '\ufeff' :: rest => rest
  | cs => cs

def ofTokens? (tokens : List Token) : Option Fields := do
  let statements ← (cut 0 [] tokens).mapM Statement.ofTokens?
  return (← statements.foldlM Document.carryOut? {}).root

/-- The table of a text. -/
def ofChars? (cs : List Char) : Option Fields := do ofTokens? (← tokens? (afterMark cs))

end BusRegen.Toml
