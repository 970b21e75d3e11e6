/-!
# Offsets of zones

An offset is given by hours, minutes and seconds of one sign.
-/

namespace RdfIndex

/-- Hours, minutes and seconds that can be an offset. -/
def isZoneOffset (hours minutes seconds : Int) : Bool :=
  hours.natAbs ≤ 25 && minutes.natAbs ≤ 59 && seconds.natAbs ≤ 59

/-- The offset of a zone. -/
structure ZoneOffset where
  /-- The hours, with the sign of the offset. -/
  hours : Int
  /-- The minutes, with the sign of the offset. -/
  minutes : Int
  /-- The seconds, with the sign of the offset. -/
  seconds : Int
deriving DecidableEq, Repr

namespace ZoneOffset

/-- A number with the sign of another one that is not zero. -/
def withSign (sign i : Int) : Int := if sign < 0 then -(i.natAbs : Int) else i.natAbs

/-- The offset of hours, minutes and seconds.  The first of them that is not zero gives the sign of
all. -/
def of? (hours minutes seconds : Int) : Option ZoneOffset :=
  if isZoneOffset hours minutes seconds then
    let sign := if hours ≠ 0 then hours else if minutes ≠ 0 then minutes else seconds
    some ⟨withSign sign hours, withSign sign minutes, withSign sign seconds⟩
  else none

/-- The minutes of an offset, without its seconds. -/
def wholeMinutes (o : ZoneOffset) : Int := o.hours * 60 + o.minutes

end ZoneOffset

end RdfIndex
