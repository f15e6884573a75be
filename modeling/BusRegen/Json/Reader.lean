import BusRegen.Json.Token
/-!
# Reading JSON

A value is built from tokens by a machine with a stack of the arrays and objects that are open
(`Builder.step`), so reading is a fold again. At most 127 may be open at a time. The caller chooses
the `Precision` of the numbers.
-/
namespace BusRegen.Json

/-- An array or object that is still open, its content in reverse. -/
inductive Frame where
  | array (items : List Json)
  | object (fields : List (String × Json)) (key : String)

/-- What may come next. -/
inductive Expect where
  | value
  /-- Just after `[`. -/
  | valueOrClose
  /-- Just after an opening brace. -/
  | keyOrClose
  | key
  | colon
  /-- After a value inside a frame. -/
  | separator
  | done (v : Json)

structure Builder where
  frames : List Frame := []
  expect : Expect := .value

namespace Builder

/-- The nesting that is refused. -/
def depthLimit : Nat := 128

/-- A value is complete. -/
def complete (frames : List Frame) (v : Json) : Builder :=
  match frames with
  | [] => ⟨[], .done v⟩
  | .array items :: rest => ⟨.array (v :: items) :: rest, .separator⟩
  | .object fields key :: rest => ⟨.object ((key, v) :: fields) key :: rest, .separator⟩

/-- The innermost frame is closed by its own mark. -/
def close (frames : List Frame) (t : Token) : Option Builder :=
  match frames, t with
  | .array items :: rest, .closeArray => some (complete rest (.array items.reverse))
  | .object fields _ :: rest, .closeObject => some (complete rest (.object fields.reverse))
  | _, _ => none

def openFrame (frames : List Frame) (f : Frame) (expect : Expect) : Option Builder :=
  if frames.length + 1 < depthLimit then some ⟨f :: frames, expect⟩ else none

/-- A token where a value is due. -/
def begin (frames : List Frame) : Token → Option Builder
  | .value v => some (complete frames v)
  | .openArray => openFrame frames (.array []) .valueOrClose
  | .openObject => openFrame frames (.object [] "") .keyOrClose
  | _ => none

/-- A token where a key is due. -/
def setKey (frames : List Frame) : Token → Option Builder
  | .value (.text k) =>
    match frames with
    | .object fields _ :: rest => some ⟨.object fields k :: rest, .colon⟩
    | _ => none
  | _ => none

def step (b : Builder) (t : Token) : Option Builder :=
  match b.expect with
  | .value => begin b.frames t
  | .valueOrClose => (close b.frames t).or (begin b.frames t)
  | .keyOrClose => (close b.frames t).or (setKey b.frames t)
  | .key => setKey b.frames t
  | .colon =>
    match t with
    | .colon => some { b with expect := .value }
    | _ => none
  | .separator =>
    match t with
    | .comma =>
      match b.frames with
      | .array _ :: _ => some { b with expect := .value }
      | .object .. :: _ => some { b with expect := .key }
      | [] => none
    | t => close b.frames t
  | .done _ => none

def finish (b : Builder) : Option Json :=
  match b.expect with
  | .done v => some v
  | _ => none

end Builder

def ofTokens? (ts : List Token) : Option Json := do
  (← ts.foldlM Builder.step {}).finish

/-- The value of a text that holds one JSON value and nothing else. -/
def ofChars? (p : Precision) (cs : List Char) : Option Json := do
  ofTokens? (← tokens? p cs)

def parse? (p : Precision) (s : String) : Option Json := ofChars? p s.toList

end BusRegen.Json
