import RdfIndex.Calendar.Date
import RdfIndex.Number.Numeral
import RdfIndex.Toml.Scanner

/-!
# Dates and times of TOML

A date is `YYYY-MM-DD`, a time is `hh:mm:ss` with an optional fraction.  A date may have a time after
it, and the time an offset.  The date must exist; a time may have a leap second.
-/

namespace RdfIndex.Toml

/-- Takes a number of exactly so many digits. -/
def fixedDigits : Nat → Scanner (List Char)
  | 0 => return []
  | width + 1 => return (← Scanner.one Numeral.isDigit) :: (← fixedDigits width)

/-- Takes a number of exactly so many digits that is no greater than a limit. -/
def numberUpTo (width limit : Nat) : Scanner Nat := do
  let n := Numeral.value (← fixedDigits width)
  if n ≤ limit then return n else failure

/-- Takes a date. -/
def date : Scanner Unit := do
  let year ← numberUpTo 4 9999
  Scanner.exactly ['-']
  let month ← numberUpTo 2 12
  Scanner.exactly ['-']
  let day ← numberUpTo 2 31
  if isDate year month day then return () else failure

/-- Takes the fraction of a second. -/
def secondFraction : Scanner Unit := do
  Scanner.exactly ['.']
  discard (Scanner.one Numeral.isDigit)
  discard (Scanner.run Numeral.isDigit)

/-- Takes a time of day. -/
def time : Scanner Unit := do
  discard (numberUpTo 2 23)
  Scanner.exactly [':']
  discard (numberUpTo 2 59)
  Scanner.exactly [':']
  discard (numberUpTo 2 60)
  discard (Scanner.optional secondFraction)

/-- Takes an offset in hours and minutes. -/
def hourOffset : Scanner Unit := do
  discard (Scanner.one fun c => c == '+' || c == '-')
  discard (numberUpTo 2 23)
  Scanner.exactly [':']
  discard (numberUpTo 2 59)

/-- Takes an offset. -/
def offset : Scanner Unit := discard (Scanner.one fun c => c == 'Z' || c == 'z') <|> hourOffset

/-- Takes a time after a date. -/
def timeAfterDate : Scanner Unit := do
  discard (Scanner.one fun c => c == 'T' || c == 't' || c == ' ')
  time
  discard (Scanner.optional offset)

/-- Takes a date, a time or both. -/
def moment : Scanner Unit := (do date; discard (Scanner.optional timeAfterDate)) <|> time

end RdfIndex.Toml
