/-
This file models `put/time_utils.h`: the cycles of the DPDK timer and the
conversions between them and the `std::chrono` durations. A cycle count is the
source's unsigned 64-bit number; a duration is its signed tick count, which the
product with the frequency converts to unsigned 64 bits before the division.
-/

import Mathlib.Data.Nat.Notation

namespace TrafficGenerator

/-- `put::cycles`. -/
abbrev Cycles := UInt64

/-- The ticks per second of the four duration types `from_duration` and `to` take. -/
inductive DurationUnit where
  | seconds
  | milliseconds
  | microseconds
  | nanoseconds

def DurationUnit.perSecond : DurationUnit → UInt64
  | .seconds => 1
  | .milliseconds => 1000
  | .microseconds => 1000000
  | .nanoseconds => 1000000000

/-- `cycles::from_duration`: the product is taken in 64 bits, before the division. -/
def Cycles.fromDuration (hz : UInt64) (tick : DurationUnit) (count : Int) : Cycles :=
  UInt64.ofInt count * hz / tick.perSecond

/-- `cycles::to`. -/
def Cycles.toDuration (hz : UInt64) (tick : DurationUnit) (num : Cycles) : UInt64 :=
  num * tick.perSecond / hz

end TrafficGenerator
