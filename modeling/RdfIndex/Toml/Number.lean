import RdfIndex.Number.Floating
import RdfIndex.Number.Integer
import RdfIndex.Text.CodePoint
import RdfIndex.Toml.Scanner

/-!
# Numbers of TOML

A decimal integer has no zero in front and may have a sign.  Hexadecimal, octal and binary integers
start with `0x`, `0o` and `0b` and have none.  Single underscores may stand between digits.  Integers
have 64 bits.  A floating-point number is a decimal integer with a fraction or an exponent, and must
not be so large that it rounds to infinity; the least ones are not bounded.
-/

namespace RdfIndex.Toml

/-- The digits that pass a test at the start of a text, with single underscores between them, and
what follows them.  Another digit comes before the text. -/
def moreDigits (p : Char → Bool) : List Char → List Char × List Char
  | [] => ([], [])
  | '_' :: c :: cs =>
    if p c then
      let (ds, rest) := moreDigits p cs
      (c :: ds, rest)
    else ([], '_' :: c :: cs)
  | c :: cs =>
    if p c then
      let (ds, rest) := moreDigits p cs
      (c :: ds, rest)
    else ([], c :: cs)

/-- Takes one digit or more. -/
def digits (p : Char → Bool) : Scanner (List Char) := do
  let first ← Scanner.one p
  let more ← fun cs => some (moreDigits p cs)
  return first :: more

/-- Takes a sign, if there is one, and tells whether it is a hyphen. -/
def sign : Scanner Bool := do
  return (← Scanner.optional (Scanner.one fun c => c == '+' || c == '-')) == some '-'

/-- Takes the digits of a decimal integer. -/
def wholeDigits : Scanner (List Char) := do
  if ← Scanner.takes '0' then return ['0'] else digits Numeral.isDigit

/-! ## Integers -/

/-- The number that digits write in a base. -/
def valueIn (base : Nat) (ds : List Char) : Nat :=
  ds.foldl (fun n c => n * base + (CodePoint.hexValue? c).getD 0) 0

def isDigitOf (base : Nat) (c : Char) : Bool := (CodePoint.hexValue? c).any (· < base)

/-- Takes a decimal integer. -/
def decimalInteger : Scanner Int := do
  let negative ← sign
  let n : Int := Numeral.value (← wholeDigits)
  return if negative then -n else n

/-- Takes an integer after the mark of its base. -/
def markedInteger (mark : Char) (base : Nat) : Scanner Int := do
  Scanner.exactly ['0', mark]
  return valueIn base (← digits (isDigitOf base))

/-- Takes an integer of 64 bits. -/
def integer : Scanner Int := do
  let i ← markedInteger 'x' 16 <|> markedInteger 'o' 8 <|> markedInteger 'b' 2 <|> decimalInteger
  if Integer.fits 8 i then return i else failure

/-! ## Floating-point numbers -/

/-- Takes a fraction. -/
def fraction : Scanner (List Char) := do
  Scanner.exactly ['.']
  digits Numeral.isDigit

/-- Takes an exponent. -/
def exponent : Scanner Int := do
  discard (Scanner.one fun c => c == 'e' || c == 'E')
  let negative ← sign
  let n : Int := Numeral.value (← digits Numeral.isDigit)
  return if negative then -n else n

/-- Takes a decimal numeral with a fraction or an exponent. -/
def scientific : Scanner Floating.Scientific := do
  let negative ← sign
  let whole ← wholeDigits
  match ← Scanner.optional fraction with
  | none => return ⟨negative, whole, ← exponent⟩
  | some places =>
    let e := (← Scanner.optional exponent).getD 0
    return ⟨negative, whole ++ places, e - places.length⟩

/-- Takes a floating-point number that is written with digits. -/
def finiteFloat : Scanner Unit := do
  let s ← scientific
  if s.negative || Floating.nearest binary64 s < binary64.infinity then return () else failure

/-- Takes a floating-point number that is written in letters. -/
def namedFloat : Scanner Unit := do
  discard sign
  Scanner.exactly ['i', 'n', 'f'] <|> Scanner.exactly ['n', 'a', 'n']

/-- Takes a floating-point number. -/
def float : Scanner Unit := finiteFloat <|> namedFloat

end RdfIndex.Toml
