import BusRegen.Files
import BusRegen.SettingsFile.Text
/-!
# Settings in files

Reads the settings from a file and writes them to one. Where no file is named, the standard settings
are read.
-/
namespace BusRegen

inductive SettingsFileError where
  /-- The text is none of a settings file. -/
  | malformed
  | unreadable (path : String)
  /-- The file has text, but one that is `malformed`. -/
  | unparsable (path : String)
  | notWritten
  deriving DecidableEq, Repr

namespace SettingsFileError

def message : SettingsFileError → String
  | malformed => "TOML 格式错误"
  | unreadable path => s!"读取配置文件失败: {path}"
  | unparsable path => s!"解析配置文件失败: {path}"
  | notWritten => "写入配置文件失败"

/-- The error that led to this one. -/
def cause? : SettingsFileError → Option SettingsFileError
  | unparsable _ => some malformed
  | _ => none

end SettingsFileError

namespace SettingsFile

variable {m : Type → Type} [Monad m] [Files m]

def ofText (s : String) : Except SettingsFileError SettingsFile :=
  match ofText? s with
  | some f => .ok f
  | none => .error .malformed

/-- `save_to_file`: writes the settings to a file. -/
def save (f : SettingsFile) (path : String) : m (Except SettingsFileError Unit) := do
  return if ← Files.writeText path f.text then .ok () else .error .notWritten

/-- `load_from_file`: reads the settings from a file. -/
def load (path : String) : m (Except SettingsFileError SettingsFile) := do
  let some s ← Files.readText? path | return .error (.unreadable path)
  return (ofText s).mapError fun _ => .unparsable path

/-- `load_or_default`: reads a file if one is named. -/
def loadOrDefault : Option String → m (Except SettingsFileError SettingsFile)
  | some path => load path
  | none => return .ok {}

end SettingsFile
end BusRegen
