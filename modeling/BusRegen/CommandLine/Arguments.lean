import BusRegen.Decimal.Written
/-!
# Arguments of an action

An action takes flags, in any order, and some actions one path besides. A flag with a value is
written `--name value` or `--name=value`, or with its letter `-n value`, `-nvalue` or `-n=value`; a
value that begins with a hyphen can only be written in one argument with its flag. No flag is given
twice. After `--` an argument is a path whatever it begins with. A wish for help ends the reading,
and so does the first mistake.
-/
namespace BusRegen.CommandLine

/-- What a value has to be. -/
inductive ValueKind where
  | text
  /-- Text that is not empty. -/
  | path
  | scalar
  /-- A natural number of 32 bits. -/
  | count
  deriving DecidableEq, Repr

/-- A number as in `count`. -/
def count? (s : String) : Option Nat :=
  let (negative, ds) := Decimal.takeSign s.toList
  let n := Decimal.ofDigits ds
  if ds.isEmpty || !ds.all Decimal.isDigit || 2 ^ 32 ≤ n || (negative && n != 0) then none
  else some n

def ValueKind.accepts : ValueKind → String → Bool
  | text, _ => true
  | path, s => s != ""
  | scalar, s => (Scalar.ofWritten? s.toList).isSome
  | count, s => (count? s).isSome

structure Flag where
  name : String
  letter : Option Char := none
  /-- The value that goes with the flag; a switch has none. -/
  value : Option ValueKind := none
  about : String
  /-- The value if the flag is not given. -/
  default : Option String := none

/-- A path that has to be given. -/
structure Operand where
  about : String

/-- Something that the program can be told to do, with what it has to be told besides. -/
structure Action where
  /-- The words that choose it. -/
  words : List String
  about : String
  operand : Option Operand := none
  flags : List Flag := []

/-- What was given to an action: names of flags, with a value unless the flag is a switch, and the
path. -/
structure Given where
  flags : List (String × Option String) := []
  operand : Option String := none

namespace Given

def has (g : Given) (name : String) : Bool := g.flags.any (·.1 == name)

def value? (g : Given) (name : String) : Option String :=
  (g.flags.find? (·.1 == name)).bind (·.2)

end Given

/-- How far the reading of arguments has come. -/
inductive Reading where
  /-- Whether all that follows are paths. -/
  | going (g : Given) (literal : Bool)
  /-- The next argument is the value of a flag. -/
  | pending (g : Given) (f : Flag) (kind : ValueKind)
  | help
  | mistaken

namespace Reading

def switch (g : Given) (f : Flag) : Reading :=
  if g.has f.name then mistaken else going { g with flags := g.flags ++ [(f.name, none)] } false

def valued (g : Given) (f : Flag) (kind : ValueKind) (value : String) : Reading :=
  if g.has f.name || !kind.accepts value then mistaken
  else going { g with flags := g.flags ++ [(f.name, some value)] } false

/-- A flag with what follows it in the same argument. -/
def flag (g : Given) (f : Flag) (attached : Option String) : Reading :=
  match f.value, attached with
  | none, none => switch g f
  | none, some _ => mistaken
  | some kind, none => pending g f kind
  | some kind, some value => valued g f kind value

/-- A name after two hyphens, perhaps with a value. -/
def long (c : Action) (g : Given) (cs : List Char) : Reading :=
  let (name, rest) := cs.span (· != '=')
  let name := String.ofList name
  match c.flags.find? (·.name == name), rest with
  | some f, [] => flag g f none
  | some f, _ :: value => flag g f (some (String.ofList value))
  | none, [] => if name = "help" then help else mistaken
  | none, _ => mistaken

/-- A letter after one hyphen, perhaps with a value. All letters of actions take values. -/
def short (c : Action) (g : Given) (letter : Char) (rest : List Char) : Reading :=
  match c.flags.find? (·.letter == some letter), rest with
  | some f, [] => flag g f none
  | some f, '=' :: value => flag g f (some (String.ofList value))
  | some f, value => flag g f (some (String.ofList value))
  | none, _ => if letter = 'h' then help else mistaken

def path (c : Action) (g : Given) (literal : Bool) (value : String) : Reading :=
  if c.operand.isSome && g.operand.isNone && ValueKind.path.accepts value then
    going { g with operand := some value } literal
  else mistaken

def step (c : Action) (r : Reading) (argument : String) : Reading :=
  match r, argument.toList with
  | going g true, _ => path c g true argument
  | going g false, ['-', '-'] => going g true
  | going g false, '-' :: '-' :: name => long c g name
  | going g false, '-' :: letter :: rest => short c g letter rest
  | going g false, _ => path c g false argument
  | pending .., '-' :: _ :: _ => mistaken
  | pending g f kind, _ => valued g f kind argument
  | help, _ => help
  | mistaken, _ => mistaken

/-- What was given, once all arguments are read. -/
def finish (c : Action) : Reading → Reading
  | going g literal =>
    if c.operand.isSome && g.operand.isNone then mistaken else going g literal
  | pending .. => mistaken
  | r => r

end Reading

def Action.read (c : Action) (arguments : List String) : Reading :=
  (arguments.foldl (Reading.step c) (.going {} false)).finish c

end BusRegen.CommandLine
