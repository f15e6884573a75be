import BusRegen.CommandLine.Help
import BusRegen.CommandLine.Live
import BusRegen.CommandLine.Simulate
import BusRegen.Json.Writer
import BusRegen.SelfTest.Suite
/-!
# The program

What a list of arguments leads to: the job of a request, the version, a help text, or no more than
the exit code for arguments that make no request.
-/
namespace BusRegen.CommandLine

def reportLine (r : SelfTest.Report) : String :=
  match r.message with
  | none => s!"  ✅ {r.name}"
  | some message => s!"  ❌ {r.name}: {message}"

def groupLines (r : SelfTest.SuiteResult) (g : SelfTest.Group) : List String :=
  s!"── {g.name} ──" :: (r.ofGroup g).map reportLine

def suiteLines (r : SelfTest.SuiteResult) : List String :=
  SelfTest.Group.all.flatMap (groupLines r) ++
    ["", s!"通过 {r.passed}/{r.total} ({Decimal.fixed 1 r.successRate}%)"]

/-- What is said of valid controller settings. -/
def configLines (c : Config) : List String :=
  ["✅ 配置有效",
    s!"  区间: minimum {Decimal.fixed 2 c.minimumVoltage} V < " ++
      s!"threshold {Decimal.fixed 2 c.thresholdVoltage} V < " ++
      s!"target {Decimal.fixed 2 c.targetVoltage} V",
    s!"  PID: kp={showScalar c.gains.kp} ki={showScalar c.gains.ki} kd={showScalar c.gains.kd}" ++
      s!"  积分限幅 ±{showScalar c.integralLimit}",
    s!"  最大电流 {Decimal.fixed 1 c.maxOutputCurrent} A, " ++
      s!"死区 {Decimal.fixed 2 c.deadbandCurrent} A, 控制频率 {Decimal.fixed 0 c.tickRate} Hz"]

namespace Job

variable {m : Type → Type} [Monad m] [Files m]

/-- `ConfigCommand.show_`: the text of the settings. -/
def showConfig (file : Option String) : Job m Unit := do
  let f ← settings file
  modify (· ++ f.text)

/-- `ConfigCommand.init_`: a file with the standard settings, which replaces none unless forced. -/
def initConfig (path : String) (force : Bool) : Job m Unit := do
  if !force && (← perform (Files.occupied path)) then
    refuse s!"文件已存在: {path}（使用 --force 覆盖）"
  attempt (({} : SettingsFile).save path) fun _ => s!"写入 {path} 失败"
  say s!"✅ 已写入默认配置: {path}"

/-- `ConfigCommand.check_`: looks at the controller settings of a file, not at those of the loop. -/
def checkConfig (path : String) : Job m Unit := do
  say s!"🔍 检查配置: {path}"
  let f ← attempt (SettingsFile.load path) SettingsFileError.message
  sayAll (configLines (← config f))

/-- `SuiteCommand.execute`: all scenarios, of which none may fail. -/
def suite (file : Option String) (json : Bool) : Job m Unit := do
  let c ← config (← settings file)
  let r ← attempt (pure (SelfTest.run c)) fun _ => SettingsFile.invalidConfig
  if json then say (String.ofList r.toJson.pretty) else sayAll (suiteLines r)
  if !r.allPassed then refuse s!"{r.failed} 个场景失败"

def ofRequest : Request → Job m Unit
  | .showConfig file => showConfig file
  | .initConfig path force => initConfig path force
  | .checkConfig path => checkConfig path
  | .simulate r => simulate r
  | .suite file json => suite file json
  | .live r => live r

end Job

/-- How the program ends: its exit code, what it has written, and the first line of its error
report. -/
structure Ending where
  code : Nat
  output : String := ""
  error : Option String := none

namespace Ending

def ofAnswer (a : Answer) : Ending :=
  { code := (a.failure.map Failure.code).getD 0, output := a.output
    error := a.failure.map Failure.firstLine }

def versionText : String := programName ++ " " ++ version ++ "\n"

def ofInterpretation {m : Type → Type} [Monad m] [Files m] : Interpretation → m Ending
  | .request r => do return ofAnswer (← (Job.ofRequest r).answer)
  | .version => return { code := 0, output := versionText }
  | .help t => return { code := 0, output := t.text }
  | .mistaken => return { code := 2 }

/-- Runs the program. -/
def ofArguments {m : Type → Type} [Monad m] [Files m] (arguments : List String) : m Ending :=
  ofInterpretation (Interpretation.ofArguments arguments)

end Ending
end BusRegen.CommandLine
