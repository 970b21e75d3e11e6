/-!
# Times of day

Hours, minutes, seconds and nanoseconds, without leap seconds.
-/

namespace RdfIndex

def nanosPerSecond : Nat := 1000000000

def secondsPerDay : Nat := 86400

/-- An hour, minute, second and nanosecond that exist. -/
def isTimeOfDay (hour minute second nano : Nat) : Bool :=
  hour < 24 && minute < 60 && second < 60 && nano < nanosPerSecond

/-- A time of day. -/
structure TimeOfDay where
  /-- The hour, below 24. -/
  hour : Nat
  /-- The minute, below 60. -/
  minute : Nat
  /-- The second, below 60. -/
  second : Nat
  /-- The nanosecond, below a thousand million. -/
  nano : Nat
  exists_ : isTimeOfDay hour minute second nano = true
deriving DecidableEq

namespace TimeOfDay

/-- The time of an hour, minute, second and nanosecond, if it exists. -/
def of? (hour minute second nano : Nat) : Option TimeOfDay :=
  if h : isTimeOfDay hour minute second nano = true then some ⟨hour, minute, second, nano, h⟩
  else none

/-- Whole seconds since midnight. -/
def seconds (t : TimeOfDay) : Nat := t.hour * 3600 + t.minute * 60 + t.second

/-- Nanoseconds since midnight. -/
def nanos (t : TimeOfDay) : Nat := t.seconds * nanosPerSecond + t.nano

/-- The time at a number of nanoseconds after midnight. -/
def ofNanos? (n : Nat) : Option TimeOfDay :=
  let s := n / nanosPerSecond
  of? (s / 3600) (s / 60 % 60) (s % 60) (n % nanosPerSecond)

end TimeOfDay

end RdfIndex
