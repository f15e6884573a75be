import BusRegen.CommandLine.Actions
import BusRegen.Profile.Record
import BusRegen.SettingsFile.Storage
import BusRegen.Telemetry
/-!
# Jobs

A job works with files, says lines, and may fail, mostly with a message, after which what it has
said stands. Here are the parts that several actions have in common: reading the settings, choosing
a voltage curve, and making a duration of a number of seconds.
-/
namespace BusRegen.CommandLine

/-- Why a job has ended early. -/
inductive Failure where
  | refusal (message : String)
  /-- It could not go on, and has not seen to a message. -/
  | crash
  deriving DecidableEq, Repr

namespace Failure

/-- The exit code of the program. -/
def code : Failure → Nat
  | refusal _ => 1
  | crash => 101

/-- The first line of a text. A carriage return at its end belongs to the end of the line. -/
def firstLineOf (cs : List Char) : List Char :=
  let line := cs.takeWhile (· != '\n')
  if line.getLast? = some '\r' then line.dropLast else line

/-- The first line of the report; that of a crash is empty. -/
def firstLine : Failure → String
  | refusal message => "Error: " ++ String.ofList (firstLineOf message.toList)
  | crash => ""

end Failure

abbrev Job (m : Type → Type) := ExceptT Failure (StateT String m)

/-- What a job has said, and why it has failed if it has. -/
structure Answer where
  output : String
  failure : Option Failure

namespace Job

variable {m : Type → Type} [Monad m] [Files m]

def answer (job : Job m Unit) : m Answer := do
  let (result, output) ← StateT.run (ExceptT.run job) ""
  return { output, failure := match result with
    | .ok _ => none
    | .error failure => some failure }

def refuse (message : String) : Job m α := throw (.refusal message)

def say (line : String) : Job m Unit := modify fun output => output ++ line ++ "\n"

def sayAll (lines : List String) : Job m Unit := lines.forM say

/-- Carries out an action that says nothing. -/
def perform (action : m α) : Job m α := ExceptT.lift (StateT.lift action)

/-- Carries out an action, the failure of which is that of the job. -/
def attempt (action : m (Except ε α)) (message : ε → String) : Job m α := do
  match ← perform action with
  | .ok x => return x
  | .error e => refuse (message e)

def settings (path : Option String) : Job m SettingsFile :=
  attempt (SettingsFile.loadOrDefault path) SettingsFileError.message

/-- The controller settings of a file, which have to be valid. -/
def config (f : SettingsFile) : Job m Config :=
  attempt (pure f.config) fun _ => SettingsFile.invalidConfig

/-- `resolve_profile`: the curve that is chosen. The numbers of one in a file are read the quick
way. -/
def profile (choice : ProfileChoice) : Job m Profile := do
  match choice.file with
  | some path =>
    let some text ← perform (Files.readText? path)
      | refuse s!"读取曲线文件失败: {path}"
    let some p := Profile.ofRecord? .quick text.toList | refuse s!"解析曲线文件失败: {path}"
    return p
  | none =>
    let some p := Profile.preset? choice.preset
      | refuse s!"未知曲线 '{choice.preset}'（可选: smooth, step, ramp, rapid）"
    return p

/-- `parse_duration`: a number of seconds that is positive and not too long. -/
def duration (seconds : Float) : Job m Duration := do
  if !(seconds.isFinite && 0 < seconds) then refuse s!"时长必须为正数: {showScalar seconds}"
  let some d := Duration.ofSeconds? seconds | refuse s!"时长超出范围: {showScalar seconds} s"
  return d

end Job

/-- The telemetry in the reports of the actions. -/
def telemetryLines (t : Telemetry) : List String :=
  ["遥测:", s!"  Tick count:          {t.ticks}",
    s!"  Max current applied: {Decimal.fixed 2 t.maxCurrent} A",
    s!"  Energy recovered:    {Decimal.fixed 4 t.energy} Wh"]

end BusRegen.CommandLine
