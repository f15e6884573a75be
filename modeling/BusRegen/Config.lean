import BusRegen.TickPeriod
import BusRegen.Decimal.Style
/-!
# Controller settings

The three voltages divide the bus voltage into zones: regeneration is wanted strictly between
`minimum` and `threshold`, and pulls the voltage up to `target`. `Config.check` accepts the settings
that a regulator can be built from; of several faults it reports the first in the order of
`ConfigError`, after any setting that is no finite number.
-/
namespace BusRegen

/-- The gains of the proportional, integral and derivative terms (`PidGains`). -/
structure Gains where
  kp : Float := 20.0
  ki : Float := 5.0
  kd : Float := 0.5

/-- `ControllerConfig`: voltages in V, currents in A, and their standard values. -/
structure Config where
  targetVoltage : Float := 48.0
  thresholdVoltage : Float := 47.5
  minimumVoltage : Float := 45.0
  /-- The largest regeneration current. -/
  maxOutputCurrent : Float := 50.0
  /-- The bound on the absolute value of the integral. -/
  integralLimit : Float := 10.0
  gains : Gains := {}
  tickPeriod : Duration := .ofMicroseconds 1000
  /-- An output up to this current is not worth driving. -/
  deadbandCurrent : Float := 0.1

/-- The settings that are scalars, in the order in which they are checked. -/
inductive Parameter where
  | targetVoltage | thresholdVoltage | minimumVoltage | maxOutputCurrent | integralLimit
  | kp | ki | kd | deadbandCurrent
  deriving DecidableEq, Repr

namespace Parameter

def all : List Parameter :=
  [targetVoltage, thresholdVoltage, minimumVoltage, maxOutputCurrent, integralLimit,
    kp, ki, kd, deadbandCurrent]

/-- The name of a setting in files and messages. -/
def key : Parameter → String
  | targetVoltage => "target_voltage"
  | thresholdVoltage => "threshold_voltage"
  | minimumVoltage => "minimum_voltage"
  | maxOutputCurrent => "max_output_current"
  | integralLimit => "integral_limit"
  | kp => "kp"
  | ki => "ki"
  | kd => "kd"
  | deadbandCurrent => "deadband_current"

end Parameter

namespace Config

def get (c : Config) : Parameter → Float
  | .targetVoltage => c.targetVoltage
  | .thresholdVoltage => c.thresholdVoltage
  | .minimumVoltage => c.minimumVoltage
  | .maxOutputCurrent => c.maxOutputCurrent
  | .integralLimit => c.integralLimit
  | .kp => c.gains.kp
  | .ki => c.gains.ki
  | .kd => c.gains.kd
  | .deadbandCurrent => c.deadbandCurrent

def set (c : Config) (p : Parameter) (x : Float) : Config :=
  match p with
  | .targetVoltage => { c with targetVoltage := x }
  | .thresholdVoltage => { c with thresholdVoltage := x }
  | .minimumVoltage => { c with minimumVoltage := x }
  | .maxOutputCurrent => { c with maxOutputCurrent := x }
  | .integralLimit => { c with integralLimit := x }
  | .kp => { c with gains := { c.gains with kp := x } }
  | .ki => { c with gains := { c.gains with ki := x } }
  | .kd => { c with gains := { c.gains with kd := x } }
  | .deadbandCurrent => { c with deadbandCurrent := x }

/-- `tick_rate_hz`: ticks per second. -/
def tickRate (c : Config) : Float := 1.0 / c.tickPeriod.seconds

end Config

/-- Why settings are refused. -/
inductive ConfigError where
  | notFinite (parameter : Parameter) (value : Float)
  | voltageOrdering (minimum threshold target : Float)
  | maxCurrent (amps : Float)
  | integralLimit (limit : Float)
  | deadband (amps : Float)
  | tickPeriod (period : Duration)

namespace ConfigError

def message : ConfigError → String
  | notFinite p value => s!"Parameter `{p.key}` is not finite: {showScalar value}"
  | voltageOrdering minimum threshold target =>
    s!"Invalid voltage ordering: minimum ({showScalar minimum} V) < threshold " ++
      s!"({showScalar threshold} V) < target ({showScalar target} V) is required"
  | maxCurrent amps => s!"Invalid max output current: {showScalar amps} A (must be > 0)"
  | integralLimit limit => s!"Invalid integral limit: {showScalar limit} (must be >= 0)"
  | deadband amps => s!"Invalid deadband current: {showScalar amps} A (must be >= 0)"
  | tickPeriod period => s!"Invalid tick period: {period.text} (must be > 0)"

end ConfigError

namespace Config

/-- The first scalar setting that is an infinity or no number. -/
def firstNotFinite? (c : Config) : Option Parameter :=
  Parameter.all.find? fun p => !(c.get p).isFinite

/-- What `ControllerConfig.validate` finds: why settings are refused, if they are. -/
def fault? (c : Config) : Option ConfigError :=
  match c.firstNotFinite? with
  | some p => some (.notFinite p (c.get p))
  | none =>
    if ¬ (c.minimumVoltage < c.thresholdVoltage ∧ c.thresholdVoltage < c.targetVoltage) then
      some (.voltageOrdering c.minimumVoltage c.thresholdVoltage c.targetVoltage)
    else if c.maxOutputCurrent ≤ 0 then some (.maxCurrent c.maxOutputCurrent)
    else if c.integralLimit < 0 then some (.integralLimit c.integralLimit)
    else if c.deadbandCurrent < 0 then some (.deadband c.deadbandCurrent)
    else if c.tickPeriod.isZero then some (.tickPeriod c.tickPeriod)
    else none

def check (c : Config) : Except ConfigError Unit :=
  match c.fault? with
  | some e => .error e
  | none => .ok ()

/-- `ControllerConfig.tick_period`: the tick period, which no valid settings lack. -/
def period (c : Config) : Except ConfigError TickPeriod :=
  match TickPeriod.ofDuration? c.tickPeriod with
  | some p => .ok p
  | none => .error (.tickPeriod c.tickPeriod)

end Config
end BusRegen
