import BusRegen.Decimal.Fixed
import BusRegen.Decimal.Style
import BusRegen.Regulator
import BusRegen.Json.Reader
import BusRegen.Json.Writer
import BusRegen.Stage.Scripted
import BusRegen.Loop.Runner
import BusRegen.Loop.Threads
import BusRegen.Profile.Record
import BusRegen.Trace.Storage
import BusRegen.Trace.Summary
import BusRegen.Simulator
import BusRegen.SettingsFile.Storage
import BusRegen.SelfTest.Suite
import BusRegen.CommandLine.Program
import BusRegen.Main
import BusRegen.Proofs.Regulator.Command
import BusRegen.Proofs.Loop.AtRest
import BusRegen.Proofs.Loop.Released
import BusRegen.Proofs.Loop.Calls
import BusRegen.Proofs.Loop.Steps
import BusRegen.Proofs.Trace.Archive
import BusRegen.Proofs.Simulator.Accounts
import BusRegen.Proofs.Loop.Counters
import BusRegen.Proofs.Loop.Restart
import BusRegen.Proofs.Loop.Threads
import BusRegen.Proofs.Loop.Stop
import BusRegen.Proofs.Scalar.Nearest
import BusRegen.Proofs.Simulator.TimeBase
import BusRegen.Proofs.Scalar.Monotone
import BusRegen.Proofs.Duration
import BusRegen.Proofs.Regulator.Integral
import BusRegen.Proofs.SelfTest.Bench
import BusRegen.Proofs.SelfTest.Scenarios
import BusRegen.Proofs.SelfTest.Window
import BusRegen.Proofs.Simulator.Calls
import BusRegen.Proofs.SettingsFile.Runnable
import BusRegen.Proofs.Loop.Published
import BusRegen.Proofs.SettingsFile.RoundTrip
import BusRegen.Proofs.Json.Quick
import BusRegen.Proofs.Profile.RoundTrip
import BusRegen.Proofs.Regulator.VoltageDrop
import BusRegen.Proofs.Regulator.Convergence
import BusRegen.Proofs.Stage.CompleteStep
import BusRegen.Proofs.Stage.FailedReading
import BusRegen.Proofs.Stage.LogBook
import BusRegen.Proofs.Stage.Feed
import BusRegen.Proofs.Profile.Ramp
import BusRegen.Proofs.Regulator.Telemetry
import BusRegen.Proofs.Simulator.Shape
import BusRegen.Proofs.Simulator.RecoveredEnergy
import BusRegen.Proofs.Profile.Ending
import BusRegen.Proofs.Profile.Holds
import BusRegen.Proofs.Trace.Summary
import BusRegen.Proofs.Trace.Table
import BusRegen.Proofs.SettingsFile.Partial
