import RdfIndex.Number.Numeral

/-!
# Canonical integer labels

A canonical label is `0`, or digits without a leading zero after an optional hyphen.  Every integer
has one.
-/

namespace RdfIndex.Integer

/-- A label without the hyphen it may start with. -/
def unsign (label : List Char) : List Char :=
  match label with
  | '-' :: ds => ds
  | ds => ds

/-- A label that starts with a hyphen. -/
def isSigned (label : List Char) : Bool := label.head? == some '-'

/-- `0`, or digits without a leading zero after an optional hyphen. -/
def isCanonical (label : List Char) : Bool :=
  let ds := unsign label
  ds != [] && ds.all Numeral.isDigit
    && (if ds = ['0'] then !isSigned label else ds.head? != some '0')

/-- The integer of a canonical label. -/
def read? (label : List Char) : Option Int :=
  if isCanonical label then
    let n : Int := Numeral.value (unsign label)
    some (if isSigned label then -n else n)
  else none

/-- An integer that fits in `width` bytes of two's complement. -/
def fits (width : Nat) (i : Int) : Bool :=
  -(Nat.pow 256 width : Int) ≤ 2 * i && 2 * i < (Nat.pow 256 width : Int)

/-- The integer of a canonical label, if it fits in `width` bytes. -/
def readFitting? (width : Nat) (label : List Char) : Option Int :=
  (read? label).filter (fits width)

end RdfIndex.Integer
