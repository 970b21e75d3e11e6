import RdfIndex.Number.Integer

/-!
# Decimal labels

A decimal is an integer and a number of fraction digits.  A canonical label has an integer part
without leading zeros, a point, and a fraction of at least one digit without trailing zeros beyond
it; zero carries no hyphen.
-/

namespace RdfIndex

/-- The number `unscaled * 10 ^ (-scale)`. -/
structure Decimal where
  /-- The number with its point left out. -/
  unscaled : Int
  /-- The number of digits after the point. -/
  scale : Nat
deriving DecidableEq, Repr

namespace Decimal

/-- The longest fraction that is stored as a number. -/
def maxScale : Nat := 64

/-- The digits before and after the point.  Zeros fill the fraction up to the scale, however great it
is.  A formatter that keeps a width in sixteen bits stops the program instead at a scale above
65535, which no stored decimal has. -/
def parts (d : Decimal) : List Char × List Char :=
  let ds := Numeral.digits d.unscaled.natAbs
  if d.scale < ds.length then (ds.take (ds.length - d.scale), ds.drop (ds.length - d.scale))
  else (['0'], Numeral.padLeft d.scale ds)

/-- The label with at least one digit after the point. -/
def toChars (d : Decimal) : List Char :=
  let (whole, fraction) := d.parts
  (if d.unscaled < 0 then ['-'] else []) ++ whole ++ '.' :: (if fraction = [] then ['0'] else fraction)

/-- The label with at least one digit after the point. -/
def text (d : Decimal) : String := String.ofList d.toChars

/-- The characters before and after the first point. -/
def splitPoint (cs : List Char) : Option (List Char × List Char) :=
  match cs.dropWhile (· != '.') with
  | _ :: fraction => some (cs.takeWhile (· != '.'), fraction)
  | [] => none

/-- A label in canonical form. -/
def isCanonical (label : List Char) : Bool :=
  match splitPoint (Integer.unsign label) with
  | none => false
  | some (whole, fraction) =>
    whole != [] && fraction != [] && whole.all Numeral.isDigit && fraction.all Numeral.isDigit
      && !(1 < whole.length && whole.head? == some '0')
      && !(1 < fraction.length && fraction.getLast? == some '0')
      && !(whole == ['0'] && fraction == ['0'] && Integer.isSigned label)

/-- The decimal of a canonical label, with the fraction `0` left out.  The number must fit in eight
bytes and the fraction in `maxScale` digits. -/
def read? (label : List Char) : Option Decimal :=
  if isCanonical label then
    match splitPoint (Integer.unsign label) with
    | none => none
    | some (whole, fraction) =>
      let fraction := if fraction = ['0'] then [] else fraction
      let magnitude : Int := Numeral.value (whole ++ fraction)
      if Integer.fits 8 magnitude && fraction.length ≤ maxScale then
        some ⟨if Integer.isSigned label then -magnitude else magnitude, fraction.length⟩
      else none
  else none

end Decimal

end RdfIndex
