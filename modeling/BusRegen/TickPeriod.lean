import BusRegen.Duration
/-!
# Tick periods

The time from one tick of a regulator to the next: a duration that is not zero.
-/
namespace BusRegen

structure TickPeriod where
  duration : Duration
  not_zero : duration.isZero = false
  deriving DecidableEq, Repr

namespace TickPeriod

/-- `TickPeriod.new`: a duration as a tick period; zero is none. -/
def ofDuration? (d : Duration) : Option TickPeriod :=
  if h : d.isZero = false then some ⟨d, h⟩ else none

/-- `TickPeriod.from_hz`: the period of a frequency in hertz, to the nearest nanosecond; the
frequency zero has none. -/
def ofHertz? (hz : UInt32) : Option TickPeriod :=
  if hz = 0 then none
  else (Duration.ofSeconds? (1.0 / Float.ofNat hz.toNat)).bind ofDuration?

def seconds (p : TickPeriod) : Float := p.duration.seconds

theorem nanoseconds_pos (p : TickPeriod) : 0 < p.duration.nanoseconds := by
  have hne := p.not_zero
  rw [Duration.isZero, beq_eq_false_iff_ne] at hne
  omega

end TickPeriod
end BusRegen
