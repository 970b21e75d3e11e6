import RdfIndex.Bytes.Cursor
import RdfIndex.Calendar.Label
import RdfIndex.Number.Integer

/-!
# Encoded dates and times

A date and time is stored as the seconds since 1970 of the instant it denotes, the nanoseconds, and
the offset of its zone; without a zone, as if it were in the zone of offset zero.  A date is stored
as its Julian day number and the offset, a time as the nanoseconds since midnight and the offset.
The offset of no zone is the greatest number of two bytes.

What is read back is checked to be what a label can denote.
-/

namespace RdfIndex.Calendar

/-- The Julian day number of the first of January 1970. -/
def epochDay : Int := 2440588

/-- The number that stands for no zone. -/
def noZone : Int := 0x7FFF

/-- The offset of a zone in two bytes. -/
def zoneBytes (offset : Option Int) : Bytes := Bytes.ofInt 2 (offset.getD noZone)

/-- Reads the offset of a zone. -/
def readZone : Reader (Option Int) := do
  let offset ← Reader.int 2
  if offset = noZone then return none
  else if maxOffset < offset.natAbs then Reader.fail (.zoneOffset offset)
  else return some offset

/-- The time of day of a number of nanoseconds since midnight. -/
def timeOfNanos (nanos : Nat) : Except DecodeError TimeOfDay :=
  match TimeOfDay.ofNanos? nanos with
  | some time => .ok time
  | none => .error (.timeOfDay nanos)

/-- The date of a Julian day number, if labels can have its year. -/
def dateOfDay (day : Int) : Except DecodeError Date :=
  if !Integer.fits 4 day then .error (.julianDay day)
  else
    match Date.ofJulianDay? day with
    | none => .error (.date day)
    | some date => if 1 ≤ date.year then .ok date else .error (.year date.year)

/-- The seconds since 1970 of a local date and time, without regard to its zone. -/
def DateTime.localSeconds (v : DateTime) : Int :=
  (v.date.julianDay - epochDay) * secondsPerDay + v.time.seconds

/-- The stored form of a date and time. -/
def DateTime.bytes (v : DateTime) : Bytes :=
  Bytes.ofInt 8 (v.localSeconds - v.offset.getD 0 * 60) ++ Bytes.toBigEndian 4 v.time.nano
    ++ zoneBytes v.offset

/-- The date and time of seconds since 1970, nanoseconds and an offset. -/
def dateTimeOf (seconds : Int) (nanos : Nat) (offset : Option Int) :
    Except DecodeError DateTime := do
  if nanosPerSecond ≤ nanos then throw (.nanoseconds nanos)
  let inZone := seconds + offset.getD 0 * 60
  if !Integer.fits 8 inZone then throw .secondsOverflow
  let date ← dateOfDay (inZone / secondsPerDay + epochDay)
  let time ← timeOfNanos ((inZone % secondsPerDay).toNat * nanosPerSecond + nanos)
  return ⟨date, time, offset⟩

def DateTime.read : Reader DateTime := do
  let seconds ← Reader.int 8
  let nanos ← Reader.word 4
  let offset ← readZone
  Reader.check (dateTimeOf seconds nanos offset)

/-- The stored form of a date. -/
def ZonedDate.bytes (v : ZonedDate) : Bytes := Bytes.ofInt 4 v.date.julianDay ++ zoneBytes v.offset

def ZonedDate.read : Reader ZonedDate := do
  let day ← Reader.int 4
  let offset ← readZone
  let date ← Reader.check (dateOfDay day)
  return ⟨date, offset⟩

/-- The stored form of a time. -/
def ZonedTime.bytes (v : ZonedTime) : Bytes :=
  Bytes.toBigEndian 8 v.time.nanos ++ zoneBytes v.offset

def ZonedTime.read : Reader ZonedTime := do
  let nanos ← Reader.word 8
  let time ← Reader.check (timeOfNanos nanos)
  let offset ← readZone
  return ⟨time, offset⟩

end RdfIndex.Calendar
