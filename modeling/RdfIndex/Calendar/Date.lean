/-!
# Calendar dates

Dates of the Gregorian calendar, extended to all years from -9999 to 9999, and their Julian day
numbers.  A year starts after the days of the years before it, a month after the days of the months
before it.  `Date.ofJulianDay?` estimates the year from the mean length of a year and corrects the
estimate by one if need be.
-/

namespace RdfIndex

/-- A year with a 29th of February. -/
def isLeapYear (year : Int) : Bool := year % 4 == 0 && (year % 100 != 0 || year % 400 == 0)

/-- The number of days of a month, zero for a month that does not exist. -/
def daysInMonth (year : Int) (month : Nat) : Nat :=
  match month with
  | 1 => 31
  | 2 => if isLeapYear year then 29 else 28
  | 3 => 31
  | 4 => 30
  | 5 => 31
  | 6 => 30
  | 7 => 31
  | 8 => 31
  | 9 => 30
  | 10 => 31
  | 11 => 30
  | 12 => 31
  | _ => 0

/-- A year, month and day that exist. -/
def isDate (year : Int) (month day : Nat) : Bool :=
  -9999 ≤ year && year ≤ 9999 && 1 ≤ day && day ≤ daysInMonth year month

/-- A date of the calendar. -/
structure Date where
  year : Int
  /-- The month, from one to twelve. -/
  month : Nat
  /-- The day of the month, from one on. -/
  day : Nat
  exists_ : isDate year month day = true
deriving DecidableEq

namespace Date

/-- The date of a year, month and day, if it exists. -/
def of? (year : Int) (month day : Nat) : Option Date :=
  if h : isDate year month day = true then some ⟨year, month, day, h⟩ else none

/-- The number of days from the first day of year one to the first day of a year. -/
def daysBeforeYear (year : Int) : Int :=
  let y := year - 1
  365 * y + y / 4 - y / 100 + y / 400

/-- The number of days of a year before a month. -/
def daysBeforeMonth (year : Int) : Nat → Nat
  | 0 => 0
  | month + 1 => daysBeforeMonth year month + daysInMonth year month

/-- The Julian day number of the first day of year one. -/
def epoch : Int := 1721426

/-- The Julian day number of a date. -/
def julianDay (d : Date) : Int :=
  epoch + daysBeforeYear d.year + daysBeforeMonth d.year d.month + (d.day - 1 : Int)

/-- The year that holds the day with the given number after the first day of year one. -/
def yearOfDay (n : Int) : Int :=
  let estimate := n * 400 / 146097 + 1
  if n < daysBeforeYear estimate then estimate - 1
  else if daysBeforeYear (estimate + 1) ≤ n then estimate + 1
  else estimate

/-- The month and the day in it of a day of the year counted from zero, with the month to try first.
The last month takes all days that are left. -/
def monthOfDay (year : Int) : Nat → Nat → Nat → Nat × Nat
  | 0, month, n => (month, n + 1)
  | fuel + 1, month, n =>
    if n < daysInMonth year month then (month, n + 1)
    else monthOfDay year fuel (month + 1) (n - daysInMonth year month)

/-- The date with a Julian day number. -/
def ofJulianDay? (julian : Int) : Option Date :=
  let n := julian - epoch
  let year := yearOfDay n
  let (month, day) := monthOfDay year 11 1 (n - daysBeforeYear year).toNat
  of? year month day

end Date

end RdfIndex
