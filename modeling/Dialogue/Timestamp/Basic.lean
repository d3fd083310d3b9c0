/-!
# Timestamps

Points in time as seconds since 1970 in Universal Time.  A leap second is the second before it with
more than a second's worth of nanoseconds.
-/

namespace Dialogue

structure Timestamp where
  seconds : Int
  nanoseconds : Nat
  deriving DecidableEq, Repr

structure Duration where
  seconds : Nat
  nanoseconds : Nat
  deriving DecidableEq, Repr

namespace Timestamp

def secondsPerDay : Int := 86400

def nanosPerSecond : Int := 1000000000

def ofMilliseconds (ms : Int) : Timestamp where
  seconds := ms.fdiv 1000
  nanoseconds := (ms.fmod 1000).toNat * 1000000

def timeOfDay (t : Timestamp) : Int :=
  t.seconds.fmod secondsPerDay

def inLeapSecond (t : Timestamp) : Bool :=
  decide (nanosPerSecond ≤ t.nanoseconds)

/-- The nanoseconds from `start` to `stop`.  A leap second lies between two points if one of them
is in it and the other is later in a day. -/
def nanosBetween (start stop : Timestamp) : Int :=
  let leap :=
    if start.timeOfDay < stop.timeOfDay && start.inLeapSecond then 1
    else if stop.timeOfDay < start.timeOfDay && stop.inLeapSecond then -1
    else 0
  (stop.seconds - start.seconds + leap) * nanosPerSecond + (stop.nanoseconds - start.nanoseconds)

def durationUntil? (start stop : Timestamp) : Option Duration :=
  let nanos := nanosBetween start stop
  if nanos < 0 then none
  else some
    { seconds := (nanos / nanosPerSecond).toNat
      nanoseconds := (nanos % nanosPerSecond).toNat }

end Timestamp

end Dialogue
