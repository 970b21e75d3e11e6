import RdfIndex.Calendar.Date
import RdfIndex.Calendar.TimeOfDay
import RdfIndex.Number.Numeral
import RdfIndex.Text.Utf8

/-!
# Labels of dates and times

A label is a date `YYYY-MM-DD`, a time `hh:mm:ss` with up to nine digits of fraction, or both with a
`T` between them.  A zone may follow: `Z`, or a sign with `hh:mm` of at most fourteen hours.

Labels are read by their bytes.  The zone takes the last six of them, and the seconds end at the
eighth byte of a time.  A label whose characters do not end there cannot be cut: that is a fault of
its own and not a refusal, so a reading has three outcomes.

* `.ok (some v)`: the label is read.
* `.ok none`: the label is refused.
* `.error cut`: the label was to be cut inside a character.
-/

namespace RdfIndex

/-- A text was to be cut at a byte that is inside a character. -/
structure InsideCharacter where
  /-- The index of the byte, in the part that was being read. -/
  index : Nat
deriving DecidableEq, Repr

namespace Calendar

/-- The greatest offset of a zone, in minutes. -/
def maxOffset : Int := 14 * 60

/-- A date with an optional zone. -/
structure ZonedDate where
  date : Date
  /-- The offset of the zone in minutes. -/
  offset : Option Int
deriving DecidableEq

/-- A time with an optional zone. -/
structure ZonedTime where
  time : TimeOfDay
  /-- The offset of the zone in minutes. -/
  offset : Option Int
deriving DecidableEq

/-- A date and time with an optional zone. -/
structure DateTime where
  /-- The local date. -/
  date : Date
  /-- The local time. -/
  time : TimeOfDay
  /-- The offset of the zone in minutes. -/
  offset : Option Int
deriving DecidableEq

/-! ## Writing -/

/-- The label of a zone. -/
def zoneChars : Option Int → List Char
  | none => []
  | some m =>
    if m = 0 then ['Z']
    else
      (if m < 0 then '-' else '+') :: Numeral.padded 2 (m.natAbs / 60)
        ++ ':' :: Numeral.padded 2 (m.natAbs % 60)

/-- The label of a date. -/
def dateChars (d : Date) : List Char :=
  Numeral.paddedInt 4 d.year ++ '-' :: Numeral.padded 2 d.month ++ '-' :: Numeral.padded 2 d.day

/-- The fraction of a second, without the zeros at its end. -/
def fractionChars (nano : Nat) : List Char :=
  if nano = 0 then []
  else '.' :: ((Numeral.padded 9 nano).reverse.dropWhile (· == '0')).reverse

/-- The label of a time. -/
def timeChars (t : TimeOfDay) : List Char :=
  Numeral.padded 2 t.hour ++ ':' :: Numeral.padded 2 t.minute ++ ':' :: Numeral.padded 2 t.second
    ++ fractionChars t.nano

/-- The label of a date with its zone. -/
def ZonedDate.text (v : ZonedDate) : String :=
  String.ofList (dateChars v.date ++ zoneChars v.offset)

/-- The label of a time with its zone. -/
def ZonedTime.text (v : ZonedTime) : String :=
  String.ofList (timeChars v.time ++ zoneChars v.offset)

/-- The label of a date and time with its zone. -/
def DateTime.text (v : DateTime) : String :=
  String.ofList (dateChars v.date ++ 'T' :: timeChars v.time ++ zoneChars v.offset)

/-! ## Reading -/

/-- The number of a byte string of a given length that holds digits only. -/
def digits? (count : Nat) (bytes : Bytes) : Option Nat :=
  if bytes.length = count ∧ bytes.all fun b => 0x30 ≤ b && b ≤ 0x39 then
    some (bytes.foldl (fun n b => n * 10 + (b.toNat - 0x30)) 0)
  else none

/-- The byte at an index is the given character of ASCII. -/
def hasAt (bytes : Bytes) (index : Nat) (c : Char) : Bool :=
  bytes[index]? == some (UInt8.ofNat c.toNat)

/-- Some bytes from an index on. -/
def slice (bytes : Bytes) (start count : Nat) : Bytes := (bytes.drop start).take count

/-- A character ends before the byte at an index. -/
def isBoundary (bytes : Bytes) (index : Nat) : Bool :=
  match bytes.drop index with
  | [] => true
  | b :: _ => !Utf8.isTail b

/-- The date of a label without a zone. -/
def readDate? (bytes : Bytes) : Option Date :=
  if bytes.length = 10 ∧ hasAt bytes 4 '-' ∧ hasAt bytes 7 '-' then do
    let year ← digits? 4 (slice bytes 0 4)
    if year = 0 then none
    let month ← digits? 2 (slice bytes 5 2)
    let day ← digits? 2 (slice bytes 8 2)
    Date.of? year month day
  else none

/-- The nanoseconds of a fraction with its point, or of nothing. -/
def readFraction? (bytes : Bytes) : Option Nat :=
  match bytes with
  | [] => some 0
  | b :: ds =>
    if b = 0x2E ∧ ds ≠ [] ∧ ds.length ≤ 9 then
      (digits? ds.length ds).map fun n => n * Nat.pow 10 (9 - ds.length)
    else none

/-- The time of a label without a zone.  The label is cut after its eighth byte once the hour and
the minute are read. -/
def readTime? (bytes : Bytes) : Except InsideCharacter (Option TimeOfDay) :=
  if 8 ≤ bytes.length ∧ hasAt bytes 2 ':' ∧ hasAt bytes 5 ':' then
    match digits? 2 (slice bytes 0 2), digits? 2 (slice bytes 3 2) with
    | some hour, some minute =>
      if isBoundary bytes 8 then
        .ok do
          let second ← digits? 2 (slice bytes 6 2)
          let nano ← readFraction? (bytes.drop 8)
          TimeOfDay.of? hour minute second nano
      else .error ⟨8⟩
    | _, _ => .ok none
  else .ok none

/-- The offset of a zone of six bytes, when they have the shape of one: `none` for another shape,
`some none` for a zone that is refused. -/
def readZone? (zone : Bytes) : Option (Option Int) :=
  if (hasAt zone 0 '+' ∨ hasAt zone 0 '-') ∧ hasAt zone 3 ':' then
    some do
      let hours ← digits? 2 (slice zone 1 2)
      let minutes ← digits? 2 (slice zone 4 2)
      let total := hours * 60 + minutes
      if 60 ≤ minutes then none
      if maxOffset < total then none
      if hasAt zone 0 '-' then some (-(total : Int)) else some (total : Int)
  else none

/-- A label in two parts: what stands before the zone, and the offset of the zone. -/
def splitZone? (bytes : Bytes) :
    Except InsideCharacter (Option (Bytes × Option Int)) :=
  if bytes.getLast? = some 0x5A then .ok (some (bytes.dropLast, some 0))
  else if 6 ≤ bytes.length then
    let start := bytes.length - 6
    if isBoundary bytes start then
      match readZone? (bytes.drop start) with
      | none => .ok (some (bytes, none))
      | some none => .ok none
      | some (some offset) => .ok (some (bytes.take start, some offset))
    else .error ⟨start⟩
  else .ok (some (bytes, none))

/-- The value of a date label. -/
def ZonedDate.read? (label : String) : Except InsideCharacter (Option ZonedDate) := do
  match ← splitZone? (Utf8.bytes label) with
  | none => return none
  | some (body, offset) => return (readDate? body).map fun date => ⟨date, offset⟩

/-- The value of a time label. -/
def ZonedTime.read? (label : String) : Except InsideCharacter (Option ZonedTime) := do
  match ← splitZone? (Utf8.bytes label) with
  | none => return none
  | some (body, offset) => return (← readTime? body).map fun time => ⟨time, offset⟩

/-- The bytes before and after the first `T`. -/
def splitAtT? (bytes : Bytes) : Option (Bytes × Bytes) :=
  match bytes.dropWhile (· != 0x54) with
  | _ :: rest => some (bytes.takeWhile (· != 0x54), rest)
  | [] => none

/-- The value of a date and time label.  The time is read only after the date is accepted. -/
def DateTime.read? (label : String) : Except InsideCharacter (Option DateTime) := do
  match ← splitZone? (Utf8.bytes label) with
  | none => return none
  | some (body, offset) =>
    match splitAtT? body with
    | none => return none
    | some (before, after) =>
      match readDate? before with
      | none => return none
      | some date => return (← readTime? after).map fun time => ⟨date, time, offset⟩

end Calendar

end RdfIndex
