import BusRegen.SelfTest.Bench
/-!
# Tests of whole courses of operation

Each definition is the test of one scenario, from `voltage_drop_scenario` to
`extreme_voltage_conditions`: voltages that fall, recover, oscillate, jump and stay, also for long
and beyond all bounds.
-/
namespace BusRegen.SelfTest

def voltageDrop (c : Config) : Verdict := do
  (← Bench.create c).checkSequence 10 0 [48.0, 47.8, 47.4, 47.0, 46.5, 47.0, 47.5, 48.0]

def voltageRecovery (c : Config) : Verdict := do
  let b ← Bench.create c
  let b := b.hold 46.0 50
  ensure b.isActive "regen should be active at 46 V"
  b.checkSequence 20 0 [46.2, 46.5, 47.0, 47.3, 47.6, 48.0]

def oscillationDamping (c : Config) : Verdict := do
  (← Bench.create c).checkSequence 30 0 [47.4, 47.6, 47.4, 47.6, 47.4]

/-- The difference between the largest and the smallest of some scalars. -/
def spread (xs : List Float) : Float :=
  xs.foldl Scalar.larger (Scalar.infinity true) - xs.foldl Scalar.smaller (Scalar.infinity false)

def steadyState (c : Config) : Verdict := do
  let b ← Bench.create c
  let (outputs, b) := (b.hold 46.5 190).appliedOver 46.5 10
  ensure b.isActive "should keep regulating at constant 46.5 V"
  ensure (spread outputs < 1.0)
    s!"output should be steady, spread {Decimal.fixed 3 (spread outputs)} A"

def responseTime (c : Config) : Verdict := do
  let b ← Bench.create c
  let b := (b.hold 48.0 10).hold 46.0 1
  ensure b.isActive "should react on the first tick after a drop"
  let b := b.hold 46.0 4
  ensure b.isActive "should stay active after the drop"

def gainsText (g : Gains) : String :=
  s!"({showScalar g.kp}, {showScalar g.ki}, {showScalar g.kd})"

def stableWith (c : Config) (g : Gains) : Verdict := do
  let b ← Bench.create { c with gains := g }
  let b := b.hold 46.5 50
  ensure b.isActive s!"should regulate with gains {gainsText g}"
  ensure (b.applied.isFinite && b.applied ≤ c.maxOutputCurrent)
    s!"output {showScalar b.applied} out of range with gains {gainsText g}"

def stabilityMargins (c : Config) : Verdict :=
  [⟨10.0, 2.0, 0.1⟩, ⟨30.0, 8.0, 1.0⟩, ⟨20.0, 5.0, 0.5⟩].forM (stableWith c)

/-- The energy of commands, each in force for `dt` at one voltage, in Wh. -/
def commandedEnergy (voltage dt : Float) (commands : List Command) : Float :=
  commands.foldl (fun sum c => sum + (match c with
    | .apply i => i.abs * voltage * dt / 3600
    | .release => 0)) (Scalar.zero true)

def energyAccounting (c : Config) : Verdict := do
  let b ← Bench.create c
  let b := b.hold 46.5 1000
  let expected := commandedEnergy 46.5 b.regulator.period.seconds b.stage.log.toList
  let recorded := b.regulator.telemetry.energy
  ensure (0 < recorded) "energy should be recovered at 46.5 V"
  ensure ((recorded - expected).abs ≤ expected * 1e-9)
    s!"telemetry {Decimal.fixed 6 recorded} Wh vs commanded {Decimal.fixed 6 expected} Wh"

def rapidChanges (c : Config) : Verdict := do
  (← Bench.create c).checkSequence 5 0 [48.0, 45.0, 47.0, 46.0, 48.0]

/-- So many rounds of 100 ticks, after those already made. -/
def holdRounds (b : Bench) (made : Nat) : Nat → Except String Bench
  | 0 => return b
  | n + 1 => do
    let b := b.hold 46.8 100
    ensure b.isActive s!"should keep regulating after {(made + 1) * 100} ticks"
    holdRounds b (made + 1) n

def longDuration (c : Config) : Verdict := do
  let b ← holdRounds (← Bench.create c) 0 10
  ensure (b.stage.watchdogResets == 1000) s!"watchdog resets {b.stage.watchdogResets} != 1000"

/-- At each voltage in turn the regulator is to rest and the motor to be released. -/
def checkReleased (b : Bench) : List Float → Verdict
  | [] => return
  | v :: rest => do
    let b := b.hold v 10
    ensure (!b.isActive) s!"should not regulate at {showScalar v} V"
    ensure b.stage.motorReleased s!"motor should be released at {showScalar v} V"
    checkReleased b rest

def extremeVoltages (c : Config) : Verdict := do
  checkReleased (← Bench.create c) [55.0, c.minimumVoltage - 5.0, Scalar.nan]

end BusRegen.SelfTest
