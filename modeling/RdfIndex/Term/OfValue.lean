import RdfIndex.Calendar.Label
import RdfIndex.Calendar.ZoneOffset
import RdfIndex.Number.Decimal
import RdfIndex.Number.Floating
import RdfIndex.Term.Basic

/-!
# Literals of values

The literal of a truth value, a number, a date or a time has the label that the value is written as.
-/

namespace RdfIndex

/-- The truth value of a label. -/
def readBoolean? (label : String) : Option Bool :=
  if label = "true" then some true else if label = "false" then some false else none

/-- The label of a truth value. -/
def booleanText (b : Bool) : String := if b then "true" else "false"

namespace Literal

/-- A truth value. -/
def ofBool (b : Bool) : Literal := typed (booleanText b) Xsd.boolean

def ofInt (i : Int) (datatype : String) : Literal := typed (Numeral.text i) datatype

/-- A floating-point number of 32 bits. -/
def float (bits : Nat) : Literal := typed (Floating.text binary32 bits) Xsd.float

/-- A floating-point number of 64 bits. -/
def double (bits : Nat) : Literal := typed (Floating.text binary64 bits) Xsd.double

def decimal (d : Decimal) : Literal := typed d.text Xsd.decimal

def ofDateTime (v : Calendar.DateTime) : Literal := typed v.text Xsd.dateTime

def ofDate (v : Calendar.ZonedDate) : Literal := typed v.text Xsd.date

/-- A time of day. -/
def ofTime (v : Calendar.ZonedTime) : Literal := typed v.text Xsd.time

/-- A local date and time with the offset of its zone, of which the seconds are left out. -/
def dateTime (date : Date) (time : TimeOfDay) (offset : ZoneOffset) : Literal :=
  ofDateTime ⟨date, time, some offset.wholeMinutes⟩

/-- A date without a zone. -/
def date (d : Date) : Literal := ofDate ⟨d, none⟩

end Literal

end RdfIndex
