import BusRegen.Profile
import BusRegen.Json.Reader
import BusRegen.Json.Writer
/-!
# Voltage curves as JSON records

A curve is an object whose field `kind` says which curve it is; the other fields are its numbers
under their names. `toJson` writes the kind first and then the numbers in their order. `ofJson?`
reads them in any order and passes over fields of other names, but a field must not be missing or
given twice. A record may also be an array of the same values without names, in their order, and so
may a hold; then there must be neither too few nor too many.
-/
namespace BusRegen.Profile

/-- The names of the numbers of a curve, by its kind. -/
def dipKeys : List String := ["baseline", "low", "start", "end"]

def rampKeys : List String := ["baseline", "floor", "start", "fall_rate", "hold", "rise_rate"]

def holdKeys : List String := ["voltage", "duration"]

/-! ## Writing -/

/-- Fields with the given names and numbers. -/
def numberFields (keys : List String) (xs : List Float) : List (String × Json) :=
  (keys.zip xs).map fun (k, x) => (k, .scalar x)

def holdJson (h : Hold) : Json := .object (numberFields holdKeys [h.voltage, h.duration])

def kindField (kind : String) : String × Json := ("kind", .text kind)

def toJson : Profile → Json
  | constant v => .object (kindField "constant" :: numberFields ["voltage"] [v])
  | step d =>
    .object (kindField "step" :: numberFields dipKeys [d.baseline, d.low, d.start, d.stop])
  | ramp r =>
    .object (kindField "ramp" :: numberFields rampKeys
      [r.baseline, r.floor, r.start, r.fallRate, r.hold, r.riseRate])
  | smoothDrop => .object [kindField "smooth_drop"]
  | sequence holds => .object [kindField "sequence", ("holds", .array (holds.map holdJson))]

def toRecord (p : Profile) : List Char := p.toJson.compact

/-! ## Reading -/

/-- The content of a record: named values, or values in order. -/
inductive Content where
  | fields (fs : List (String × Json))
  | items (vs : List Json)

namespace Content

/-- The values under the given names, in their order. -/
def values? (c : Content) (keys : List String) : Option (List Json) :=
  match c with
  | fields fs => keys.mapM fun k => Json.single? k fs
  | items vs => if vs.length = keys.length then some vs else none

/-- The numbers under the given names, in their order. -/
def numbers? (c : Content) (keys : List String) : Option (List Float) := do
  (← c.values? keys).mapM Json.scalar?

end Content

def content? : Json → Option Content
  | .object fs => some (.fields fs)
  | .array vs => some (.items vs)
  | _ => none

def hold? (v : Json) : Option Hold := do
  match ← (← content? v).numbers? holdKeys with
  | [voltage, duration] => some ⟨voltage, duration⟩
  | _ => none

/-- The kind of a record and its other content. -/
def kindAndContent? : Json → Option (String × Content)
  | .object fs =>
    match Json.single? "kind" fs with
    | some (.text kind) => some (kind, .fields (fs.filter (·.1 != "kind")))
    | _ => none
  | .array (.text kind :: rest) => some (kind, .items rest)
  | _ => none

def ofContent? (kind : String) (c : Content) : Option Profile :=
  match kind with
  | "constant" => do
    match ← c.numbers? ["voltage"] with
    | [v] => some (constant v)
    | _ => none
  | "step" => do
    match ← c.numbers? dipKeys with
    | [baseline, low, start, stop] => some (step ⟨baseline, low, start, stop⟩)
    | _ => none
  | "ramp" => do
    match ← c.numbers? rampKeys with
    | [baseline, floor, start, fallRate, hold, riseRate] =>
      some (ramp ⟨baseline, floor, start, fallRate, hold, riseRate⟩)
    | _ => none
  | "smooth_drop" => do
    let _ ← c.values? []
    some smoothDrop
  | "sequence" => do
    match ← c.values? ["holds"] with
    | [.array vs] => return sequence (← vs.mapM hold?)
    | _ => none
  | _ => none

def ofJson? (v : Json) : Option Profile := do
  let (kind, c) ← kindAndContent? v
  ofContent? kind c

/-- The curve of a text that holds one record and nothing else, with numbers as exact as asked
for. -/
def ofRecord? (p : Json.Precision) (cs : List Char) : Option Profile := do
  ofJson? (← Json.ofChars? p cs)

end BusRegen.Profile
