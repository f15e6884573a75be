import BusRegen.CommandLine.Job
import BusRegen.Json.Sorted
import BusRegen.Simulator
import BusRegen.Trace.Storage
import BusRegen.Trace.Summary
/-!
# The action `simulate`

Runs a voltage curve through a simulator, keeps the trace if that is asked for, and reports what it
amounts to, in lines or as JSON.
-/
namespace BusRegen.CommandLine

def optionalScalar : Option Float → Json
  | none => .null
  | some x => .scalar x

def summaryJson (s : Summary) : Json :=
  .object [("samples", .integer s.samples), ("total_time", .scalar s.totalTime),
    ("active_time", .scalar s.activeTime),
    ("avg_voltage_active", optionalScalar (s.averages.map (·.1))),
    ("avg_current_active", optionalScalar (s.averages.map (·.2))),
    ("max_current", .scalar s.maxCurrent), ("energy_wh", .scalar s.energy)]

def telemetryJson (t : Telemetry) : Json :=
  .object [("tick_count", .integer t.ticks), ("max_current_applied", .scalar t.maxCurrent),
    ("cumulative_energy_recovered", .scalar t.energy)]

/-- What a simulation has given. -/
structure SimulationReport where
  profile : Profile
  seconds : Float
  summary : Summary
  telemetry : Telemetry

namespace SimulationReport

def json (r : SimulationReport) : Json :=
  Json.sorted (.object [("profile", r.profile.toJson), ("summary", summaryJson r.summary),
    ("telemetry", telemetryJson r.telemetry)])

def lines (r : SimulationReport) : List String :=
  s!"📈 仿真: {r.profile.describe} ({Decimal.fixed 2 r.seconds} s, {r.summary.samples} ticks)" ::
    r.summary.lines ++ "" :: telemetryLines r.telemetry

end SimulationReport

namespace Job

variable {m : Type → Type} [Monad m] [Files m]

/-- Keeps a trace under the names that are given. -/
def keep (t : Trace) (r : SimulateRequest) : Job m Unit := do
  if let some path := r.archive then
    attempt (t.save path) fun _ => s!"保存轨迹失败: {path}"
  if let some path := r.table then
    attempt (t.saveCsv path) TraceFileError.message

/-- `SimulateCommand.execute`: runs the curve, keeps the trace and reports. -/
def simulate (r : SimulateRequest) : Job m Unit := do
  let c ← config (← settings r.config)
  let p ← profile r.profile
  let seconds := r.duration.getD p.naturalDuration
  let d ← duration seconds
  let s ← attempt (pure (Simulator.create c)) fun _ => Simulator.refusal
  let (t, s) ← attempt (pure (s.run p d)) RunTooLong.message
  keep t r
  let report : SimulationReport := ⟨p, seconds, .ofTrace t, s.regulator.telemetry⟩
  if r.json then say (String.ofList report.json.pretty) else sayAll report.lines

end Job
end BusRegen.CommandLine
