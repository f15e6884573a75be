import BusRegen.Config
import BusRegen.Loop.Settings
/-!
# Settings files

A settings file has two sections: the settings of the regulator, with the tick period in whole
microseconds, and those of the control loop. A key that is not given has its standard value
(`RegulatorSection` and `LoopSection` without arguments). `config` says whether a regulator can be
built from the file; it does not look at the section of the loop.
-/
namespace BusRegen

/-- The keys of the section `regulator`. -/
inductive RegulatorKey where
  | scalar (p : Parameter)
  | tickPeriod
  deriving DecidableEq, Repr

namespace RegulatorKey

/-- All keys, in the order of a file. -/
def all : List RegulatorKey :=
  [scalar .targetVoltage, scalar .thresholdVoltage, scalar .minimumVoltage,
    scalar .maxOutputCurrent, scalar .integralLimit, scalar .kp, scalar .ki, scalar .kd,
    tickPeriod, scalar .deadbandCurrent]

def name : RegulatorKey → String
  | scalar p => p.key
  | tickPeriod => "tick_period_us"

end RegulatorKey

structure RegulatorSection where
  values : Parameter → Float := Config.get {}
  tickMicros : UInt64 := 1000

namespace RegulatorSection

def set (s : RegulatorSection) (p : Parameter) (x : Float) : RegulatorSection :=
  { s with values := fun q => if q = p then x else s.values q }

/-- The controller settings of a section, valid or not. -/
def toConfig (s : RegulatorSection) : Config :=
  Parameter.all.foldl (fun c p => c.set p (s.values p))
    { tickPeriod := .ofMicroseconds s.tickMicros }

/-- Equality of the numbers, so a NaN differs from itself. -/
def same (s t : RegulatorSection) : Bool :=
  Parameter.all.all (fun p => s.values p == t.values p) && s.tickMicros == t.tickMicros

theorem get_toConfig (s : RegulatorSection) (p : Parameter) : s.toConfig.get p = s.values p := by
  cases p <;> rfl

theorem tickPeriod_toConfig (s : RegulatorSection) :
    s.toConfig.tickPeriod = .ofMicroseconds s.tickMicros := rfl

end RegulatorSection

/-- The keys of the section `loop`. -/
inductive LoopKey where
  | overrunMultiplier | maxIterations | spin
  deriving DecidableEq, Repr

namespace LoopKey

def all : List LoopKey := [overrunMultiplier, maxIterations, spin]

def name : LoopKey → String
  | overrunMultiplier => "dt_clamp_multiplier"
  | maxIterations => "max_iterations"
  | spin => "spin"

end LoopKey

structure LoopSection where
  overrunMultiplier : Float := ({} : LoopSettings).overrunMultiplier
  maxIterations : Option UInt64 := none
  spin : Bool := false
  deriving DecidableEq

namespace LoopSection

def toSettings (s : LoopSection) : LoopSettings :=
  ⟨s.overrunMultiplier, s.maxIterations.map UInt64.toNat, s.spin⟩

def same (s t : LoopSection) : Bool :=
  s.overrunMultiplier == t.overrunMultiplier && s.maxIterations == t.maxIterations &&
    s.spin == t.spin

end LoopSection

/-- `RegulatorConfigFile`: the two sections. -/
structure SettingsFile where
  regulator : RegulatorSection := {}
  loop : LoopSection := {}

namespace SettingsFile

/-- `to_controller_config`: the controller settings, if they are valid. -/
def config (f : SettingsFile) : Except ConfigError Config := do
  f.regulator.toConfig.check
  return f.regulator.toConfig

/-- What is said of a file whose controller settings are not valid. -/
def invalidConfig : String := "调节器配置无效"

/-- `to_loop_config`: the settings of the loop, fit for a run or not. -/
def loopSettings (f : SettingsFile) : LoopSettings := f.loop.toSettings

/-- Equality of the numbers, so a NaN differs from itself. -/
def same (f g : SettingsFile) : Bool := f.regulator.same g.regulator && f.loop.same g.loop

end SettingsFile
end BusRegen
