/-!
# TOML values and tables

A table is built statement by statement, and how a part of it came to be decides what may still be
added (`Origin`): a header may give a table only once, but may come after headers of tables inside
it, and dotted keys extend only what dotted keys have made. Inline tables and arrays are complete
when they are closed. No key is given twice.
-/
namespace BusRegen

inductive Toml.Origin where
  /-- By a header of its own. -/
  | header
  /-- On the way of a header to a table inside it. -/
  | passed
  /-- On the way of a dotted key. -/
  | dotted
  /-- Between braces. -/
  | inline
  deriving DecidableEq, Repr

inductive Toml where
  | text (value : String)
  | integer (value : Int)
  | scalar (value : Float)
  | flag (value : Bool)
  /-- A date, a time or both; nothing here needs to know which. -/
  | time
  /-- A word in the shape of a number that stands for none, or for one too large. -/
  | misfit
  | array (items : List Toml)
  | table (origin : Toml.Origin) (fields : List (String × Toml))
  /-- An array of tables with a header each, the last one first. -/
  | tables (items : List (List (String × Toml)))

namespace Toml

/-- The content of a table: keys in the order in which they first occur. -/
abbrev Fields := List (String × Toml)

/-- The value of a key. -/
def find? (key : String) : Fields → Option Toml
  | [] => none
  | (k, v) :: rest => if k = key then some v else find? key rest

/-- Changes the value of a key, which may have none before. -/
def alter? (change : Option Toml → Option Toml) (key : String) : Fields → Option Fields
  | [] => do return [(key, ← change none)]
  | (k, v) :: rest =>
    if k = key then do return (k, ← change (some v)) :: rest
    else do return (k, v) :: (← alter? change key rest)

/-- Gives a new key its value. -/
def insertNew (v : Toml) : Option Toml → Option Toml
  | none => some v
  | some _ => none

/-- Gives a dotted key its value. Its last table has to be one of dotted keys; on the way there it
may also go through tables on the way of a header and the last ones of arrays of tables. -/
def put? (v : Toml) : (path : List String) → Fields → Option Fields
  | [], _ => none
  | [key], fs => alter? (insertNew v) key fs
  | key :: rest, fs =>
    alter? (fun
      | none => do return .table .dotted (← put? v rest [])
      | some (.table .dotted inner) => do return .table .dotted (← put? v rest inner)
      | some (.table .passed inner) =>
        if rest.length = 1 then none else do return .table .passed (← put? v rest inner)
      | some (.tables (last :: earlier)) =>
        if rest.length = 1 then none else do return .tables ((← put? v rest last) :: earlier)
      | some _ => none) key fs

/-- Changes the table that a path of headers leads to. Of an array of tables that is the last. -/
def within? (change : Fields → Option Fields) : (path : List String) → Fields → Option Fields
  | [], fs => change fs
  | key :: rest, fs =>
    alter? (fun
      | none => do return .table .passed (← within? change rest [])
      | some (.table .inline _) => none
      | some (.table o inner) => do return .table o (← within? change rest inner)
      | some (.tables (last :: earlier)) => do
        return .tables ((← within? change rest last) :: earlier)
      | some _ => none) key fs

/-- Makes a table by its header. -/
def openTable : Option Toml → Option Toml
  | none => some (.table .header [])
  | some (.table .passed inner) => some (.table .header inner)
  | some _ => none

/-- Makes another table of an array by its header. -/
def openElement : Option Toml → Option Toml
  | none => some (.tables [[]])
  | some (.tables items) => some (.tables ([] :: items))
  | some _ => none

mutual

/-- Whether there is no misfit in a value. -/
def isSound : Toml → Bool
  | misfit => false
  | array items => areSound items
  | table _ fields => fieldsSound fields
  | tables items => tablesSound items
  | text _ | integer _ | scalar _ | flag _ | time => true

def areSound : List Toml → Bool
  | [] => true
  | v :: rest => isSound v && areSound rest

def fieldsSound : List (String × Toml) → Bool
  | [] => true
  | (_, v) :: rest => isSound v && fieldsSound rest

def tablesSound : List (List (String × Toml)) → Bool
  | [] => true
  | fields :: rest => fieldsSound fields && tablesSound rest

end

theorem fieldsSound_iff {fields : Fields} :
    fieldsSound fields = true ↔ ∀ f ∈ fields, isSound f.2 = true := by
  induction fields with
  | nil => simp [fieldsSound]
  | cons f rest ih => simp [fieldsSound, ih]

end Toml
end BusRegen
