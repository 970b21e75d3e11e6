import RdfIndex.Number.Floating
import RdfIndex.Term.Basic

/-!
# Bare literals

Tokens that stand for a literal without quotes: `true` and `false`, digits for an integer, digits
with a point and a fraction for a decimal, and a numeral with an exponent for a double.  A sign may
stand in front of a number.  The label is the token as it is written.
-/

namespace RdfIndex.Shorthand

/-- A token without the sign it may start with. -/
def unsign (token : List Char) : List Char :=
  match token with
  | '+' :: cs => cs
  | '-' :: cs => cs
  | cs => cs

def isExponentMark (c : Char) : Bool := c == 'e' || c == 'E'

/-- The datatype of a token that is a number. -/
def numberType? (token : List Char) : Option String :=
  match unsign token with
  | [] => none
  | c :: cs =>
    if Numeral.isDigit c || c == '.' then
      let body := c :: cs
      if body.all Numeral.isDigit then some Xsd.integer
      else if body.any isExponentMark then
        (Floating.readScientific? token).map fun _ => Xsd.double
      else
        let fraction := (body.dropWhile (· != '.')).drop 1
        if (body.takeWhile (· != '.')).all Numeral.isDigit && fraction != []
            && fraction.all Numeral.isDigit then
          some Xsd.decimal
        else none
    else none

def datatype? (token : List Char) : Option String :=
  if token = ['t', 'r', 'u', 'e'] ∨ token = ['f', 'a', 'l', 's', 'e'] then some Xsd.boolean
  else numberType? token

/-- The literal that a token stands for. -/
def literal? (token : List Char) : Option Literal :=
  (datatype? token).map fun datatype => .typed (String.ofList token) datatype

end RdfIndex.Shorthand
