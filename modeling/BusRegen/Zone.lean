import BusRegen.Config
/-!
# Zones of the bus voltage

`idle` at or above the threshold, `safetyCutoff` at or below the minimum and for a reading that is
no finite number, `regulating` strictly between.
-/
namespace BusRegen

inductive Zone where
  | idle | regulating | safetyCutoff
  deriving DecidableEq, Repr

namespace Zone

/-- `Zone.classify`: the zone of a reading. -/
def classify (voltage : Float) (c : Config) : Zone :=
  if voltage.isFinite = false ∨ voltage ≤ c.minimumVoltage then safetyCutoff
  else if c.thresholdVoltage ≤ voltage then idle
  else regulating

def isRegulating (z : Zone) : Bool := z == regulating

/-- `as_u8`: the number that stands for a zone in a shared word and in a trace file. -/
def code : Zone → Nat
  | idle => 0
  | regulating => 1
  | safetyCutoff => 2

/-- `from_u8`: the zone that a number stands for. -/
def ofCode? : Nat → Option Zone
  | 0 => some idle
  | 1 => some regulating
  | 2 => some safetyCutoff
  | _ => none

def name : Zone → String
  | idle => "Idle"
  | regulating => "Regulating"
  | safetyCutoff => "SafetyCutoff"

theorem ofCode?_code (z : Zone) : ofCode? z.code = some z := by cases z <;> rfl

theorem ofCode?_eq_some {n : Nat} {z : Zone} : ofCode? n = some z ↔ n = z.code := by
  constructor
  · intro h
    unfold ofCode? at h
    split at h <;> first | contradiction | (cases h; rfl)
  · rintro rfl; exact ofCode?_code z

end Zone
end BusRegen
