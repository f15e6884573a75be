import BusRegen.SelfTest.Bench
/-!
# Tests of single functions

Each definition is the test of one scenario, from `pid_proportional_response` to `current_scaling`:
the terms of the PID law, the bounds of the zones and the limits of the output.
-/
namespace BusRegen.SelfTest

def proportionalResponse (c : Config) : Verdict := do
  let b ← Bench.create c
  let b := b.hold 47.0 10
  ensure b.stage.isCurrentApplied "current should be applied 1 V below target"

def integralBuildup (c : Config) : Verdict := do
  let b ← Bench.create c
  let b := b.hold 46.5 10
  let early := b.regulator.pid.accumulator
  let b := b.hold 46.5 90
  let late := b.regulator.pid.accumulator
  ensure (early < late) s!"integral should grow: {showScalar early} -> {showScalar late}"
  ensure b.stage.isCurrentApplied "current should be applied under sustained drop"

/-- The derivative term of the last tick, if there was one. -/
def lastDerivative (b : Bench) : Float := (b.regulator.last.map (·.terms.derivative)).getD 0

def derivativeDamping (c : Config) : Verdict := do
  let b ← Bench.create c
  let b := (b.hold 48.0 5).hold 46.0 1
  let d := lastDerivative b
  ensure (!(0 < c.gains.kd) || 0 < d) s!"derivative should react to the drop, got {showScalar d}"
  let b := b.hold 46.0 4
  ensure b.stage.isCurrentApplied "current should be applied after sudden drop"

/-- The lowest voltage that the tests take as safely above the minimum. -/
def lowest (c : Config) : Float := c.minimumVoltage + 0.1

def integralWithin (limit : Float) (b : Bench) : Verdict :=
  let x := b.regulator.pid.accumulator
  ensure (x.abs ≤ limit) s!"integral {showScalar x} exceeds limit {showScalar limit}"

def antiWindup (c : Config) : Verdict := do
  let b ← Bench.create c
  let b := b.hold (c.minimumVoltage - 1.0) 1000
  ensure b.regulator.pid.isZero "PID state should stay zero in safety cutoff"
  let _ ← b.holdChecked (integralWithin c.integralLimit) (lowest c) 10000

def resetBehavior (c : Config) : Verdict := do
  let b ← Bench.create c
  let b := (b.hold 46.5 50).hold (c.thresholdVoltage + 1.0) 10
  ensure b.stage.motorReleased "motor should be released above threshold"
  ensure b.regulator.pid.isZero "PID state should reset outside the regulating zone"

def thresholdDetection (c : Config) : Verdict := do
  (← Bench.create c).checkSequence 1 0 [47.5, 47.4, 47.6]

def boundaryConditions (c : Config) : Verdict := do
  (← Bench.create c).checkSequence 1 0 [50.0, 48.1, 47.9, 47.5, 47.4, 45.1, 45.0, 44.9]

def safetyCutoff (c : Config) : Verdict := do
  let b ← Bench.create c
  let b := b.hold (c.minimumVoltage - 1.0) 10
  ensure (!b.isActive) "regen should be disabled below minimum"
  ensure (b.stage.applyCalls == 0) "no current should be commanded below minimum"
  let b := b.hold (lowest c) 1
  ensure b.isActive "regen should be enabled just above minimum"

def appliedWithin (most voltage : Float) (b : Bench) : Verdict :=
  ensure (b.applied ≤ most)
    (s!"{Decimal.fixed 2 b.applied} A exceeds limit {Decimal.fixed 2 most} A " ++
      s!"at {Decimal.fixed 2 voltage} V")

def limitsAt (c : Config) (voltage : Float) : Verdict := do
  let b ← Bench.create c
  let _ ← b.holdChecked (appliedWithin c.maxOutputCurrent voltage) voltage 100

def outputLimits (c : Config) : Verdict := [40.0, lowest c, 46.0].forM (limitsAt c)

def scaling (c : Config) : Verdict := do
  let small ← Bench.create c
  let small := (small.hold 47.0 20).applied
  let large ← Bench.create c
  let large := (large.hold 46.0 20).applied
  ensure (small < large)
    (s!"larger drop should produce larger current: {Decimal.fixed 2 large} A (46 V) " ++
      s!"vs {Decimal.fixed 2 small} A (47 V)")

end BusRegen.SelfTest
