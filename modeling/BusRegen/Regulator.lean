import BusRegen.Zone
import BusRegen.Pid
import BusRegen.Telemetry
/-!
# The regulator

A regulator turns readings of the bus voltage into commands for the power stage. In the regulating
zone the PID law on `target - voltage`, limited to `0 … maxOutputCurrent`, is the current to take
from the motor; it is commanded with a negative sign, as regeneration brakes, if it is beyond the
deadband. In the other zones the motor is released and the PID memory is cleared.
-/
namespace BusRegen

/-- `ActuatorCommand`: what a regulator asks of the power stage, a signed motor current or no drive
at all. -/
inductive Command where
  | apply (current : Float)
  | release

namespace Command

/-- The absolute value of the commanded current. -/
def magnitude : Command → Float
  | apply current => current.abs
  | release => 0

def isRelease : Command → Bool
  | apply _ => false
  | release => true

end Command

/-- `ControllerOutput`: what one tick has decided. -/
structure Output where
  voltage : Float
  zone : Zone
  /-- The limited output of the PID law. -/
  current : Float
  command : Command
  terms : PidTerms

namespace Output

/-- The output of a tick outside the regulating zone. -/
def released (voltage : Float) (zone : Zone) : Output :=
  { voltage, zone, current := 0, command := .release, terms := {} }

def appliedCurrent (o : Output) : Float := o.command.magnitude

def isRegulating (o : Output) : Bool := o.zone.isRegulating

end Output

/-- `VoltageRegulator`: the settings, and what the ticks have left. -/
structure Regulator where
  config : Config
  period : TickPeriod
  pid : Pid := {}
  telemetry : Telemetry := {}
  /-- The output of the last tick, if one was made since the regulator was reset. -/
  last : Option Output := none

namespace Regulator

/-- `VoltageRegulator.new`: a regulator of its own for the given settings, if they are valid. -/
def create (c : Config) : Except ConfigError Regulator := do
  c.check
  return { config := c, period := ← c.period }

/-- `VoltageRegulator.reset`: forgets the past, but not the telemetry. -/
def reset (r : Regulator) : Regulator := { r with pid := .zero, last := none }

def resetTelemetry (r : Regulator) : Regulator := { r with telemetry := .zero }

/-- The current and command for a limited PID output. -/
def commandFor (c : Config) (output : Float) : Command :=
  if c.deadbandCurrent < output then .apply (-output) else .release

/-- The output of a tick in the regulating zone. -/
def regulated (c : Config) (voltage : Float) (terms : PidTerms) (output : Float) : Output :=
  { voltage, zone := .regulating, current := output, command := commandFor c output, terms }

/-- `VoltageRegulator.regulate`: a tick in the regulating zone. -/
def regulate (r : Regulator) (voltage : Float) (dt : TickPeriod) : Output × Pid :=
  let c := r.config
  let u := r.pid.update (c.targetVoltage - voltage) dt c.gains c.integralLimit
  (regulated c voltage u.1 (Scalar.clamp 0 c.maxOutputCurrent u.1.raw), u.2)

/-- The first half of `tick`: the output and the PID memory it leaves. -/
def respond (r : Regulator) (voltage : Float) (dt : TickPeriod) : Output × Pid :=
  match Zone.classify voltage r.config with
  | .regulating => r.regulate voltage dt
  | zone => (.released voltage zone, .zero)

/-- The second half of `tick`: takes in the output of a tick and the PID memory it leaves. -/
def conclude (r : Regulator) (voltage : Float) (dt : TickPeriod) (d : Output × Pid) :
    Output × Regulator :=
  let t := r.telemetry.record d.1.current voltage dt.seconds (!d.1.command.isRelease)
  (d.1, { r with pid := d.2, telemetry := t, last := some d.1 })

/-- `VoltageRegulator.tick`: one tick with the given reading, `dt` after the tick before. -/
def tick (r : Regulator) (voltage : Float) (dt : TickPeriod) : Output × Regulator :=
  r.conclude voltage dt (r.respond voltage dt)

/-- `VoltageRegulator.tick` under settings that nobody has checked. Where the integral or the output
is to be limited to bounds that are not in order there is no answer. -/
def tick? (r : Regulator) (voltage : Float) (dt : TickPeriod) : Option (Output × Regulator) :=
  let c := r.config
  match Zone.classify voltage c with
  | .regulating => do
    let u ← r.pid.update? (c.targetVoltage - voltage) dt c.gains c.integralLimit
    let output ← Scalar.clamp? 0 c.maxOutputCurrent u.1.raw
    return r.conclude voltage dt (regulated c voltage u.1 output, u.2)
  | zone => some (r.conclude voltage dt (.released voltage zone, .zero))

/-- `tick_nominal`, `n` times at one voltage, with the last output. -/
def hold (r : Regulator) (voltage : Float) : Nat → Option Output × Regulator
  | 0 => (none, r)
  | n + 1 =>
    let t := r.tick voltage r.period
    match n with
    | 0 => (some t.1, t.2)
    | _ + 1 => t.2.hold voltage n

/-- `current_voltage`: the reading of the last tick. -/
def voltage? (r : Regulator) : Option Float := r.last.map (·.voltage)

/-- `is_regulating_active`: whether the last tick was in the regulating zone. -/
def isActive (r : Regulator) : Bool := r.last.any (·.isRegulating)

/-- `last_applied_current`: the current that the last tick commanded. -/
def appliedCurrent (r : Regulator) : Float := (r.last.map (·.appliedCurrent)).getD 0

end Regulator
end BusRegen
