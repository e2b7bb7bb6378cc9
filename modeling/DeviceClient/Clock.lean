import DeviceClient.Power
import DeviceClient.Scheduler

namespace DeviceClient.Clock

def nanosecondsPerSecond : Nat := 10 ^ 9

/-- The first time, in nanoseconds, that the clock cannot hold. -/
def horizon : Nat := 2 ^ 63 * nanosecondsPerSecond

/-- The length that a tick has in counting: at least one nanosecond. -/
def unit (tick : Nat) : Nat := max tick 1

/-- The ticks that have begun after some time, up to the last one. -/
def ticksBegun (tick elapsed : Nat) : Nat := min (elapsed / unit tick) lastTick

/-- The ticks that it takes to cover some time, up to the last one. -/
def ticksCovering (tick elapsed : Nat) : Nat :=
  min ((elapsed + unit tick - 1) / unit tick) lastTick

/-- The time at which a number of ticks from a start on is over, if the clock can hold it. -/
def deadline? (start tick ticks : Nat) : Option Nat :=
  if start + tick * ticks < horizon then some (start + tick * ticks) else none

end DeviceClient.Clock
