import RdfIndex.Number.Shortest

/-!
# Floating-point labels

A finite value is labelled by the fewest digits that read back, with an exponent when its first
digit stands below the fourth place after the point or above the sixteenth before it, and otherwise
with at least one digit after the point.  The other labels are `NaN`, `INF` and `-INF`.  A label is
read only when it is the label of its value.
-/

namespace RdfIndex.Floating

/-! ## Writing -/

/-- Where writing with an exponent starts. -/
structure Style where
  /-- The least exponent of the first digit that is written without an exponent. -/
  leastPlain : Int
  /-- The greatest such exponent. -/
  greatestPlain : Int

/-- From `0.0001` up to sixteen digits before the point no exponent is written. -/
def labelStyle : Style := ⟨-4, 15⟩

/-- Drops the zeros at the end of a list of digits, all but the first digit. -/
def stripZeros (ds : List Char) : List Char :=
  match ds with
  | [] => []
  | d :: ds => d :: (ds.reverse.dropWhile (· == '0')).reverse

/-- Digits with an exponent: a point after the first digit if there are more. -/
def withExponent (ds : List Char) (exponent : Int) : List Char :=
  match ds with
  | [] => []
  | [d] => d :: 'e' :: Numeral.ofInt exponent
  | d :: ds => d :: '.' :: ds ++ 'e' :: Numeral.ofInt exponent

/-- Digits without an exponent, `before` of them before the point. -/
def plain (ds : List Char) (before : Int) : List Char :=
  if before ≤ 0 then '0' :: '.' :: List.replicate (-before).toNat '0' ++ ds
  else if ds.length ≤ before.toNat then
    ds ++ List.replicate (before.toNat - ds.length) '0' ++ ['.', '0']
  else ds.take before.toNat ++ '.' :: ds.drop before.toNat

/-- The text of a finite magnitude. -/
def magnitudeText (f : BinaryFormat) (magnitude : Nat) : List Char :=
  if magnitude = 0 then ['0', '.', '0']
  else
    let d := Shortest.shortest f magnitude
    let all := Numeral.digits d.digits
    let first : Int := d.exponent + all.length - 1
    let ds := stripZeros all
    if labelStyle.leastPlain ≤ first ∧ first ≤ labelStyle.greatestPlain then
      plain ds (first + 1)
    else withExponent ds first

/-- The label of the value with the given bits. -/
def toChars (f : BinaryFormat) (bits : Nat) : List Char :=
  let magnitude := bits % f.signBit
  let sign := if bits / f.signBit % 2 = 1 then ['-'] else []
  if f.infinity < magnitude then ['N', 'a', 'N']
  else if magnitude = f.infinity then sign ++ ['I', 'N', 'F']
  else sign ++ magnitudeText f magnitude

/-- The label of the value with the given bits. -/
def text (f : BinaryFormat) (bits : Nat) : String := String.ofList (toChars f bits)

/-! ## Reading -/

/-- A decimal numeral: a sign, digits with the point taken out, and an exponent of ten. -/
structure Scientific where
  /-- A hyphen stands in front. -/
  negative : Bool
  /-- The digits before and after the point. -/
  digits : List Char
  /-- The exponent of ten of the last digit. -/
  exponent : Int
deriving DecidableEq, Repr

/-- The sign in front of a text and what follows it. -/
def splitSign (cs : List Char) : Bool × List Char :=
  match cs with
  | '-' :: cs => (true, cs)
  | '+' :: cs => (false, cs)
  | cs => (false, cs)

/-- An exponent with its mark, or nothing. -/
def readExponent? (cs : List Char) : Option Int :=
  match cs with
  | [] => some 0
  | c :: cs =>
    if c = 'e' ∨ c = 'E' then
      let (negative, ds) := splitSign cs
      (Numeral.read? ds).map fun n => if negative then -(n : Int) else n
    else none

/-- Reads a sign, digits with at most one point and at least one digit, and an exponent. -/
def readScientific? (cs : List Char) : Option Scientific :=
  let (negative, cs) := splitSign cs
  let whole := cs.takeWhile Numeral.isDigit
  let cs := cs.dropWhile Numeral.isDigit
  let (fraction, cs) :=
    match cs with
    | '.' :: cs => (cs.takeWhile Numeral.isDigit, cs.dropWhile Numeral.isDigit)
    | cs => ([], cs)
  if whole = [] ∧ fraction = [] then none
  else (readExponent? cs).map fun e => ⟨negative, whole ++ fraction, e - fraction.length⟩

/-- Magnitudes from `10 ^ beyond` on are infinite and those below `10 ^ (-beyond)` are zero in every
format in use. -/
def beyond : Int := 400

/-- The number of the magnitude nearest to a decimal numeral. -/
def nearest (f : BinaryFormat) (s : Scientific) : Nat :=
  let ds := s.digits.dropWhile (· == '0')
  let places : Int := ds.length + s.exponent
  if ds = [] ∨ places < -beyond then 0
  else if beyond < places then f.infinity
  else
    let n := Numeral.value ds
    min f.infinity (f.nearest (n * Nat.pow 10 s.exponent.toNat) (Nat.pow 10 (-s.exponent).toNat))

/-- The bits of a label that is the label of its value. -/
def read? (f : BinaryFormat) (label : List Char) : Option Nat :=
  let bits? :=
    if label = ['N', 'a', 'N'] then some f.nan
    else if label = ['I', 'N', 'F'] then some f.infinity
    else if label = ['-', 'I', 'N', 'F'] then some (f.signBit + f.infinity)
    else
      (readScientific? label).bind fun s =>
        let magnitude := nearest f s
        if magnitude < f.infinity then some (if s.negative then f.signBit + magnitude else magnitude)
        else none
  bits?.filter fun bits => toChars f bits == label

end RdfIndex.Floating
