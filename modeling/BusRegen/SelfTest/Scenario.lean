import BusRegen.SelfTest.Bench
/-!
# Scenarios

A scenario is a named test of the regulator with given settings; a report says how it went.
-/
namespace BusRegen.SelfTest

/-- `ScenarioGroup`: what a scenario is about. -/
inductive Group where
  /-- A single function. -/
  | unit
  /-- A whole course of operation. -/
  | integration
  deriving DecidableEq, Repr

namespace Group

def all : List Group := [unit, integration]

def name : Group → String
  | unit => "unit"
  | integration => "integration"

/-- The name in the description of a scenario. -/
def title : Group → String
  | unit => "Unit"
  | integration => "Integration"

end Group

structure Scenario where
  name : String
  group : Group
  test : Config → Verdict

/-- `ScenarioReport`: how a scenario went. -/
structure Report where
  name : String
  group : Group
  /-- Why the scenario has failed, if it has. -/
  message : Option String

namespace Report

def passed (r : Report) : Bool := r.message.isNone

end Report

namespace Scenario

def run (s : Scenario) (c : Config) : Report :=
  { name := s.name, group := s.group
    message := match s.test c with
      | .ok _ => none
      | .error m => some m }

def describe (s : Scenario) : String :=
  s!"Scenario \x7b name: \"{s.name}\", group: {s.group.title} \x7d"

end Scenario
end BusRegen.SelfTest
