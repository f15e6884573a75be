import BusRegen.CommandLine.Actions
/-!
# Help

A help text says what an action is about, how it is written, and what its actions, arguments and
flags are, in two columns.
-/
namespace BusRegen.CommandLine

/-- Rows of two columns, the first as wide as its widest entry. -/
def columns (rows : List (String × String)) : List String :=
  let width := rows.foldl (fun w r => max w r.1.length) 0
  rows.map fun r => "  " ++ r.1 ++ "".pushn ' ' (width - r.1.length + 2) ++ r.2

def headed (title : String) (rows : List (String × String)) : List String :=
  if rows.isEmpty then [] else ["", title] ++ columns rows

/-- A help text; `words` is what follows the name of the program. -/
def helpText (about : String) (words : List String) (sections : List (List String)) : String :=
  let usage := " ".intercalate (["Usage:", programName] ++ words)
  String.join (([about, "", usage] ++ sections.flatten).map (· ++ "\n"))

namespace Flag

/-- How a flag is written. -/
def form (f : Flag) : String :=
  (match f.letter with
    | some c => "-" ++ String.singleton c ++ ", "
    | none => "    ") ++ "--" ++ f.name ++
    (if f.value.isSome then " <" ++ (f.name.map fun c => if c = '-' then '_' else c.toUpper) ++ ">"
      else "")

def row (f : Flag) : String × String :=
  (f.form, f.about ++ (match f.default with
    | some d => " [default: " ++ d ++ "]"
    | none => ""))

end Flag

def helpRow : String × String := ("-h, --help", "Print help")

def versionRow : String × String := ("-V, --version", "Print version")

def helpAbout : String := "Print this message or the help of the given subcommand(s)"

def actionRow (c : Action) : String × String := (c.words.getLast?.getD "", c.about)

def helpActionRow : String × String := ("help", helpAbout)

def Action.help (c : Action) : String :=
  helpText c.about
    (c.words ++ (if c.flags.isEmpty then [] else ["[OPTIONS]"]) ++
      (if c.operand.isSome then ["<PATH>"] else []))
    [headed "Arguments:" (c.operand.toList.map fun o => ("<PATH>", o.about)),
      headed "Options:" (c.flags.map Flag.row ++ [helpRow])]

def configAbout : String := "配置管理"

namespace Topic

def text : Topic → String
  | program =>
    helpText programAbout ["<COMMAND>"]
      [headed "Commands:"
        (("config", configAbout) :: topActions.map (actionRow ·.1) ++ [helpActionRow]),
        headed "Options:" [helpRow, versionRow]]
  | config =>
    helpText configAbout ["config", "<COMMAND>"]
      [headed "Commands:" (configActions.map (actionRow ·.1) ++ [helpActionRow]),
        headed "Options:" [helpRow]]
  | action c => c.help
  | help words =>
    helpText helpAbout (words ++ ["help", "[COMMAND]..."])
      [headed "Arguments:" [("[COMMAND]...", "Print help for the subcommand(s)")]]

end Topic
end BusRegen.CommandLine
