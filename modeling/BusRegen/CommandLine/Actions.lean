import BusRegen.CommandLine.Arguments
/-!
# The actions

What the program can be asked to do (`Request`), the actions with their flags, and how a list of
arguments chooses among them (`Interpretation.ofArguments`).
-/
namespace BusRegen.CommandLine

def programName : String := "regen-cli"

def version : String := "0.1.0"

def programAbout : String :=
  "Command-line interface for the regenerative-braking voltage regulator"

/-! ## Flags and actions -/

def profileFlag (standard : String) : Flag :=
  { name := "profile", letter := some 'p', value := some .text
    about := "预设曲线：smooth / step / ramp / rapid", default := some standard }

def profileFileFlag : Flag :=
  { name := "profile-file", value := some .path
    about := "从 JSON 文件读取曲线（覆盖 --profile）" }

def durationFlag (about : String) : Flag :=
  { name := "duration", letter := some 'd', value := some .scalar, about }

def configFlag : Flag :=
  { name := "config", letter := some 'c', value := some .path, about := "调节器配置文件（TOML）" }

def jsonFlag (about : String) : Flag := { name := "json", about }

def showAction : Action :=
  { words := ["config", "show"], about := "打印配置（缺省为默认配置）"
    flags := [{ name := "file", letter := some 'f', value := some .path
                about := "配置文件路径" }] }

def initAction : Action :=
  { words := ["config", "init"], about := "将默认配置写入文件"
    operand := some ⟨"输出路径"⟩
    flags := [{ name := "force", about := "覆盖已存在的文件" }] }

def checkAction : Action :=
  { words := ["config", "check"], about := "校验配置文件", operand := some ⟨"配置文件路径"⟩ }

def simulateAction : Action :=
  { words := ["simulate"], about := "离线仿真电压曲线"
    flags :=
      [profileFlag "smooth", profileFileFlag, durationFlag "仿真时长（秒），缺省覆盖整条曲线",
        configFlag,
        { name := "output", letter := some 'o', value := some .path, about := "保存轨迹文件" },
        { name := "csv", value := some .path, about := "导出 CSV" },
        jsonFlag "以 JSON 输出统计"] }

def suiteAction : Action :=
  { words := ["suite"], about := "运行自检套件"
    flags := [configFlag, jsonFlag "以 JSON 输出结果"] }

def liveAction : Action :=
  { words := ["live"], about := "在 Mock 功率级上实时运行"
    flags :=
      [profileFlag "step", profileFileFlag, durationFlag "运行时长（秒），缺省覆盖整条曲线",
        configFlag,
        { name := "frequency", letter := some 'f', value := some .count
          about := "状态打印频率（Hz）", default := some "2" }] }

/-! ## Requests -/

/-- How a voltage curve is chosen: a file, if one is given, or the name of a preset. -/
structure ProfileChoice where
  preset : String
  file : Option String

structure SimulateRequest where
  profile : ProfileChoice
  /-- In seconds; if not given, the curve says how long it takes. -/
  duration : Option Float
  config : Option String
  archive : Option String
  table : Option String
  json : Bool

structure LiveRequest where
  profile : ProfileChoice
  duration : Option Float
  config : Option String
  /-- How often per second the status is shown. -/
  frequency : Nat

inductive Request where
  | showConfig (file : Option String)
  | initConfig (path : String) (force : Bool)
  | checkConfig (path : String)
  | simulate (r : SimulateRequest)
  | suite (config : Option String) (json : Bool)
  | live (r : LiveRequest)

namespace Given

/-- The value of a flag or, if it is not given, the standard value. -/
def textOr (g : Given) (f : Flag) : String := (g.value? f.name).getD (f.default.getD "")

def profileChoice (g : Given) (f : Flag) : ProfileChoice :=
  ⟨g.textOr f, g.value? profileFileFlag.name⟩

def duration? (g : Given) : Option Float :=
  (g.value? "duration").bind fun s => Scalar.ofWritten? s.toList

def path (g : Given) : String := g.operand.getD ""

def config? (g : Given) : Option String := g.value? configFlag.name

def showRequest (g : Given) : Request := .showConfig (g.value? "file")

def initRequest (g : Given) : Request := .initConfig g.path (g.has "force")

def checkRequest (g : Given) : Request := .checkConfig g.path

def simulateRequest (g : Given) : Request :=
  .simulate
    { profile := g.profileChoice (profileFlag "smooth"), duration := g.duration?
      config := g.config?, archive := g.value? "output", table := g.value? "csv"
      json := g.has "json" }

def suiteRequest (g : Given) : Request := .suite g.config? (g.has "json")

def liveRequest (g : Given) : Request :=
  .live
    { profile := g.profileChoice (profileFlag "step"), duration := g.duration?
      config := g.config?
      frequency := ((g.value? "frequency").bind count?).getD 2 }

end Given

/-- The actions, each with the request that it makes of what it is given. -/
def configActions : List (Action × (Given → Request)) :=
  [(showAction, Given.showRequest), (initAction, Given.initRequest),
    (checkAction, Given.checkRequest)]

def topActions : List (Action × (Given → Request)) :=
  [(simulateAction, Given.simulateRequest), (suiteAction, Given.suiteRequest),
    (liveAction, Given.liveRequest)]

/-! ## Choosing an action -/

/-- What the help is about. -/
inductive Topic where
  | program
  | config
  | action (c : Action)
  /-- The help about help, among the actions after these words. -/
  | help (words : List String)

inductive Interpretation where
  | request (r : Request)
  | version
  | help (t : Topic)
  /-- The arguments do not make a request. -/
  | mistaken

namespace Interpretation

def ofReading (c : Action) (make : Given → Request) : Reading → Interpretation
  | .going g _ => .request (make g)
  | .help => help (.action c)
  | _ => mistaken

/-- The action with a word at its end. -/
def find? (word : String) (actions : List (Action × (Given → Request))) :
    Option (Action × (Given → Request)) :=
  actions.find? (·.1.words.getLast? == some word)

def isHelpFlag (s : String) : Bool := s == "--help" || s.startsWith "-h"

def isVersionFlag (s : String) : Bool := s == "--version" || s.startsWith "-V"

/-- Help about an action of a list, or about what the words before it lead to. -/
def helpAbout (outer : Topic) (words : List String)
    (actions : List (Action × (Given → Request))) : List String → Interpretation
  | [] => help outer
  | [word] =>
    if word = "help" then help (.help words)
    else
      match find? word actions with
      | some (c, _) => help (.action c)
      | none => mistaken
  | _ => mistaken

def ofConfigArguments : List String → Interpretation
  | [] => mistaken
  | word :: rest =>
    if isHelpFlag word then help .config
    else if word = "help" then helpAbout .config ["config"] configActions rest
    else
      match find? word configActions with
      | some (c, make) => ofReading c make (c.read rest)
      | none => mistaken

def ofArguments : List String → Interpretation
  | [] => mistaken
  | word :: rest =>
    if isHelpFlag word then help .program
    else if isVersionFlag word then version
    else if word = "config" then ofConfigArguments rest
    else if word = "help" then
      match rest with
      | "config" :: rest => helpAbout .config ["config"] configActions rest
      | rest => helpAbout .program [] topActions rest
    else
      match find? word topActions with
      | some (c, make) => ofReading c make (c.read rest)
      | none => mistaken

end Interpretation
end BusRegen.CommandLine
