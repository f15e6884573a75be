import BusRegen.Json.Value
import BusRegen.SelfTest.Integration
import BusRegen.SelfTest.Scenario
import BusRegen.SelfTest.Unit
/-!
# The self-test suite

All scenarios, run one after the other on the same settings, which have to be valid.
-/
namespace BusRegen.SelfTest

namespace Scenario

/-- `all_scenarios`, in the order of a run. -/
def all : List Scenario :=
  [⟨"pid_proportional_response", .unit, proportionalResponse⟩,
    ⟨"pid_integral_buildup", .unit, integralBuildup⟩,
    ⟨"pid_derivative_damping", .unit, derivativeDamping⟩,
    ⟨"pid_anti_windup", .unit, antiWindup⟩,
    ⟨"pid_reset_behavior", .unit, resetBehavior⟩,
    ⟨"voltage_threshold_detection", .unit, thresholdDetection⟩,
    ⟨"voltage_boundary_conditions", .unit, boundaryConditions⟩,
    ⟨"safety_voltage_cutoff", .unit, safetyCutoff⟩,
    ⟨"current_output_limits", .unit, outputLimits⟩,
    ⟨"current_scaling", .unit, scaling⟩,
    ⟨"voltage_drop_scenario", .integration, voltageDrop⟩,
    ⟨"voltage_recovery_scenario", .integration, voltageRecovery⟩,
    ⟨"oscillation_damping", .integration, oscillationDamping⟩,
    ⟨"steady_state_regulation", .integration, steadyState⟩,
    ⟨"response_time", .integration, responseTime⟩,
    ⟨"stability_margins", .integration, stabilityMargins⟩,
    ⟨"energy_recovery_accounting", .integration, energyAccounting⟩,
    ⟨"rapid_voltage_changes", .integration, rapidChanges⟩,
    ⟨"long_duration_operation", .integration, longDuration⟩,
    ⟨"extreme_voltage_conditions", .integration, extremeVoltages⟩]

def find? (name : String) : Option Scenario := all.find? (·.name == name)

end Scenario

/-- `SuiteSummary`: a report for each scenario. -/
structure SuiteResult where
  reports : List Report

namespace SuiteResult

def passed (r : SuiteResult) : Nat := r.reports.countP (·.passed)

def failures (r : SuiteResult) : List Report := r.reports.filter (!·.passed)

def failed (r : SuiteResult) : Nat := r.failures.length

def total (r : SuiteResult) : Nat := r.reports.length

def allPassed (r : SuiteResult) : Bool := r.failed == 0

/-- `success_rate`: how many scenarios have passed, in percent; zero if there are none. -/
def successRate (r : SuiteResult) : Float :=
  if r.total = 0 then 0 else Float.ofNat r.passed / Float.ofNat r.total * 100

def ofGroup (r : SuiteResult) (g : Group) : List Report := r.reports.filter (·.group == g)

def reportJson (r : Report) : Json :=
  .object [("name", .text r.name), ("group", .text r.group.name), ("passed", .bool r.passed),
    ("message", match r.message with
      | none => .null
      | some m => .text m)]

def toJson (r : SuiteResult) : Json :=
  .object [("reports", .array (r.reports.map reportJson)), ("passed", .integer r.passed),
    ("failed", .integer r.failed)]

end SuiteResult

/-- `run_suite`: runs all scenarios. -/
def run (c : Config) : Except ConfigError SuiteResult := do
  c.check
  return ⟨Scenario.all.map (·.run c)⟩

end BusRegen.SelfTest
