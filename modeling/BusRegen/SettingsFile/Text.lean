import BusRegen.SettingsFile
import BusRegen.Toml.Reader
/-!
# The text of a settings file

A settings file is a TOML text with a table for each section. `chars` writes all keys in their
order, one on a line, and leaves out only a limit of iterations that is not set. `ofChars?` takes
the keys in any order; those that are not there keep their standard values and those of other
names are passed over. Instead of a table, a section may be an array of its values in the order of
the keys, of which the last may be missing and others may follow, or a date or time, which stands
for no keys. What is passed over has to be sound, except for what follows the values of an array.
-/
namespace BusRegen.SettingsFile

/-! ## Writing -/

def wordChars (n : UInt64) : List Char := Decimal.digits n.toNat

def regulatorValue (s : RegulatorSection) : RegulatorKey → List Char
  | .scalar p => NumberStyle.marked.chars (s.values p)
  | .tickPeriod => wordChars s.tickMicros

/-- The value of a key, if it has one. -/
def loopValue? (s : LoopSection) : LoopKey → Option (List Char)
  | .overrunMultiplier => some (NumberStyle.marked.chars s.overrunMultiplier)
  | .maxIterations => s.maxIterations.map wordChars
  | .spin => some (Flag.chars s.spin)

def headerLine (name : String) : List Char := '[' :: (name.toList ++ [']', '\n'])

def entryLine (key : String) (value : List Char) : List Char :=
  key.toList ++ ' ' :: '=' :: ' ' :: (value ++ ['\n'])

def regulatorLines (s : RegulatorSection) : List Char :=
  RegulatorKey.all.flatMap fun k => entryLine k.name (regulatorValue s k)

def loopLines (s : LoopSection) : List Char :=
  LoopKey.all.flatMap fun k => ((loopValue? s k).map (entryLine k.name)).getD []

def chars (f : SettingsFile) : List Char :=
  headerLine "regulator" ++ regulatorLines f.regulator ++ '\n' ::
    (headerLine "loop" ++ loopLines f.loop)

/-- `to_toml_string`: the text of a file. -/
def text (f : SettingsFile) : String := String.ofList f.chars

/-! ## Reading -/

/-- An integer of at most 64 bits, with or without a sign, is read as a scalar too. -/
def scalar? : Toml → Option Float
  | .scalar x => some x
  | .integer n => if -2 ^ 63 ≤ n ∧ n < 2 ^ 64 then some (Scalar.ofInt n) else none
  | _ => none

def word? : Toml → Option UInt64
  | .integer n => if 0 ≤ n ∧ n < 2 ^ 64 then some (UInt64.ofNat n.toNat) else none
  | _ => none

def flag? : Toml → Option Bool
  | .flag b => some b
  | _ => none

/-- The keys and values of a section. -/
def keyValues? (names : List String) : Toml → Option Toml.Fields
  | .table _ fields => if Toml.fieldsSound fields then some fields else none
  | .array items => some (names.zip items)
  | .tables items => some (names.zip (items.reverse.map (.table .header)))
  | .time => some []
  | _ => none

def setRegulator? (s : RegulatorSection) (v : Toml) : RegulatorKey → Option RegulatorSection
  | .scalar p => return s.set p (← scalar? v)
  | .tickPeriod => return { s with tickMicros := ← word? v }

def setLoop? (s : LoopSection) (v : Toml) : LoopKey → Option LoopSection
  | .overrunMultiplier => return { s with overrunMultiplier := ← scalar? v }
  | .maxIterations => return { s with maxIterations := some (← word? v) }
  | .spin => return { s with spin := ← flag? v }

/-- Sets the keys that are given. -/
def ofKeys? (keys : List κ) (name : κ → String) (set : σ → Toml → κ → Option σ) (start : σ)
    (fields : Toml.Fields) : Option σ :=
  keys.foldlM (fun s k =>
    match Toml.find? (name k) fields with
    | none => some s
    | some v => set s v k) start

def regulator? (v : Toml) : Option RegulatorSection := do
  ofKeys? RegulatorKey.all RegulatorKey.name setRegulator? {}
    (← keyValues? (RegulatorKey.all.map RegulatorKey.name) v)

def loop? (v : Toml) : Option LoopSection := do
  ofKeys? LoopKey.all LoopKey.name setLoop? {} (← keyValues? (LoopKey.all.map LoopKey.name) v)

/-- What a text holds besides the two sections. -/
def others (fields : Toml.Fields) : Toml.Fields :=
  fields.filter fun f => f.1 != "regulator" && f.1 != "loop"

def ofFields? (fields : Toml.Fields) : Option SettingsFile := do
  if !Toml.fieldsSound (others fields) then failure
  let regulator ← match Toml.find? "regulator" fields with
    | none => some {}
    | some v => regulator? v
  let loop ← match Toml.find? "loop" fields with
    | none => some {}
    | some v => loop? v
  return { regulator, loop }

def ofChars? (cs : List Char) : Option SettingsFile := do ofFields? (← Toml.ofChars? cs)

/-- `from_toml_str`: the settings in a text. -/
def ofText? (s : String) : Option SettingsFile := ofChars? s.toList

end BusRegen.SettingsFile
