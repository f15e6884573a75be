import BusRegen.ControlStep
import BusRegen.Decimal.Fixed
import BusRegen.Stage.Scripted
/-!
# The test bench

A new regulator with a new scripted stage. Holding a voltage for some ticks makes complete control
steps of the nominal period. What a scenario expects of the regulator is derived from its settings:
it should be active strictly between the minimum and the threshold voltage.
-/
namespace BusRegen.SelfTest

/-- Whether a scenario has passed; if not, why. -/
abbrev Verdict := Except String Unit

def ensure (condition : Bool) (message : String) : Verdict :=
  if condition then .ok () else .error message

structure Bench where
  regulator : Regulator
  stage : ScriptedStage := {}

namespace Bench

def create (c : Config) : Except String Bench :=
  match Regulator.create c with
  | .ok r => .ok { regulator := r }
  | .error e => .error e.message

def step (b : Bench) : Bench :=
  let s := b.regulator.step b.stage b.regulator.period
  ⟨s.regulator, s.stage⟩

def steps (b : Bench) : Nat → Bench
  | 0 => b
  | n + 1 => b.step.steps n

/-- `Bench.hold`: so many ticks at one voltage. -/
def hold (b : Bench) (voltage : Float) (ticks : Nat) : Bench :=
  { b with stage := b.stage.set (.voltage voltage) }.steps ticks

def isActive (b : Bench) : Bool := b.regulator.isActive

/-- The absolute value of the current that the stage applies. -/
def applied (b : Bench) : Float := b.stage.appliedCurrent.abs

/-- `expect_active`: whether the settings ask for an active regulator at a voltage. -/
def wantsActive (b : Bench) (voltage : Float) : Bool :=
  let c := b.regulator.config
  c.minimumVoltage < voltage && voltage < c.thresholdVoltage

/-- One tick after the other at one voltage, each followed by a check. -/
def holdChecked (check : Bench → Verdict) (voltage : Float) (b : Bench) :
    Nat → Except String Bench
  | 0 => return b
  | n + 1 => do
    let b := b.hold voltage 1
    check b
    holdChecked check voltage b n

/-- What the stage applies after each of so many ticks at one voltage. -/
def appliedOver (voltage : Float) (b : Bench) : Nat → List Float × Bench
  | 0 => ([], b)
  | n + 1 =>
    let b := b.hold voltage 1
    let (later, last) := appliedOver voltage b n
    (b.applied :: later, last)

/-- Whether the regulator is active exactly if it should be, at the voltage number `i` of a test. -/
def checkActive (b : Bench) (i : Nat) (voltage : Float) : Verdict :=
  let wanted := b.wantsActive voltage
  ensure (b.isActive == wanted)
    (s!"step {i}: {Decimal.fixed 2 voltage} V should " ++ (if wanted then "" else "not ") ++
      "be regulating")

/-- `check_sequence`: one voltage after the other, the first with the number `i`, each for so many
ticks. -/
def checkSequence (ticks : Nat) (i : Nat) (b : Bench) : List Float → Verdict
  | [] => return
  | v :: rest => do
    let b := b.hold v ticks
    b.checkActive i v
    checkSequence ticks (i + 1) b rest

end Bench
end BusRegen.SelfTest
