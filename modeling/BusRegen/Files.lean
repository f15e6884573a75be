/-!
# Files

A program knows its files by their paths and moves whole contents. `read?` gives nothing, and
`write` says so, where a path names no file that could be read or written.

`Folder` is a folder in memory that holds files and no other folder. From there, a path that goes
through any other name leads nowhere; the folder itself and what is above it are there, but are no
files. Names and paths have a greatest length, beyond which they lead nowhere as well. Of all else
only the null device is there.
-/
namespace BusRegen

class Files (m : Type → Type) where
  read? : String → m (Option (List UInt8))
  /-- Whether there is anything at a path. -/
  occupied : String → m Bool
  /-- Replaces the content of a file, which is made if there is none; whether that was possible. -/
  write : String → List UInt8 → m Bool

namespace Files

variable {m : Type → Type} [Monad m] [Files m]

/-- The text of a file, if its content is text. -/
def readText? (path : String) : m (Option String) := do
  return (← read? path).bind fun bs => String.fromUTF8? (ByteArray.mk bs.toArray)

def writeText (path text : String) : m Bool := write path text.toUTF8.toList

end Files

/-- File names and contents; of two contents for one name the first counts. -/
structure Folder where
  files : List (String × List UInt8) := []

namespace Folder

/-- What a path leads to. -/
inductive Place where
  | file (name : String)
  | folder
  /-- What is written here is lost, and there is nothing to read. -/
  | nullDevice
  | nowhere
  deriving DecidableEq, Repr

/-- A part of a path that leads no deeper. -/
def isIdle (name : String) : Bool := name == "" || name == "."

/-- A part of a path that leads to a folder from any folder. -/
def isUpward (name : String) : Bool := isIdle name || name == ".."

/-- The number of bytes that a name may have. -/
def nameLimit : Nat := 255

/-- The number of bytes that a path may have. -/
def pathLimit : Nat := 4095

def named (name : String) : Place :=
  if name.utf8ByteSize ≤ nameLimit && !name.contains '\x00' then .file name else .nowhere

/-- Follows the parts of a path from the folder. -/
def follow : List String → Place
  | [] => .folder
  | [name] => if isUpward name then .folder else named name
  | name :: rest => if isIdle name then follow rest else .nowhere

def place (path : String) : Place :=
  let parts := path.splitOn "/"
  if path = "" ∨ pathLimit < path.utf8ByteSize then .nowhere
  else if parts.all isUpward then .folder
  else if path.startsWith "/" then
    if path.endsWith "null" && parts.filter (!isIdle ·) == ["dev", "null"] then .nullDevice
    else .nowhere
  else follow parts

def content? (f : Folder) (name : String) : Option (List UInt8) :=
  (f.files.find? (·.1 == name)).map (·.2)

def put (f : Folder) (name : String) (content : List UInt8) : Folder :=
  ⟨(name, content) :: f.files.filter (·.1 != name)⟩

theorem content?_put (f : Folder) (name other : String) (content : List UInt8) :
    (f.put name content).content? other =
      if other = name then some content else f.content? other := by
  unfold content? put
  by_cases h : other = name
  · simp [h]
  · have hne : (name == other) = false := by simpa using Ne.symm h
    simp only [List.find?_cons, hne, h, if_false, List.find?_filter]
    congr 2
    funext x
    by_cases hx : x.1 = other <;> simp_all

end Folder

instance : Files (StateM Folder) where
  read? path f :=
    match Folder.place path with
    | .file name => (f.content? name, f)
    | .nullDevice => (some [], f)
    | _ => (none, f)
  occupied path f :=
    match Folder.place path with
    | .file name => ((f.content? name).isSome, f)
    | .folder | .nullDevice => (true, f)
    | .nowhere => (false, f)
  write path content f :=
    match Folder.place path with
    | .file name => (true, f.put name content)
    | .nullDevice => (true, f)
    | _ => (false, f)

end BusRegen
