/-!
# Decimal numerals

Natural numbers as decimal digits without a leading zero, and back.
-/

namespace RdfIndex.Numeral

/-- A digit of ASCII. -/
def isDigit (c : Char) : Bool := '0' ≤ c && c ≤ '9'

/-- The last digit of a number. -/
def lastDigit (n : Nat) : Char := Char.ofNat (0x30 + n % 10)

/-- The digits of a number, most significant first. -/
def digits (n : Nat) : List Char :=
  if n < 10 then [lastDigit n] else digits (n / 10) ++ [lastDigit n]
termination_by n

/-- The number that a list of digits writes. -/
def value (ds : List Char) : Nat := ds.foldl (fun n c => n * 10 + (c.toNat - 0x30)) 0

/-- Zeros in front, up to a width. -/
def padLeft (width : Nat) (ds : List Char) : List Char :=
  List.replicate (width - ds.length) '0' ++ ds

/-- A number in at least `width` digits. -/
def padded (width n : Nat) : List Char := padLeft width (digits n)

/-- An integer, with a hyphen in front when it is negative. -/
def ofInt (i : Int) : List Char :=
  if i < 0 then '-' :: digits i.natAbs else digits i.natAbs

/-- An integer in at least `width` characters, the hyphen counted. -/
def paddedInt (width : Nat) (i : Int) : List Char :=
  if i < 0 then '-' :: padded (width - 1) i.natAbs else padded width i.natAbs

def text (i : Int) : String := String.ofList (ofInt i)

/-- The value of a list that holds digits only and at least one. -/
def read? (ds : List Char) : Option Nat :=
  if ds ≠ [] ∧ ds.all isDigit then some (value ds) else none

end RdfIndex.Numeral
