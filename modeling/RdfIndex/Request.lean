import RdfIndex.Error

/-!
# What requests name by text

Terms, statements, roles and orders are given by text in requests.  A text that names none is an
error of the request.
-/

namespace RdfIndex

def Term.ofText (source : String) : Except UsageError Term :=
  (Term.parse source).mapError (.term source)

/-- The quoted triple of three terms. -/
def Term.ofTriple (subject predicate object : Term) : Except UsageError Term :=
  match predicate with
  | .iri p => .ok (.triple subject p object)
  | t => .error (.triplePredicate t)

/-- The statement of a text. -/
def Quad.ofText (source : String) : Except UsageError Quad :=
  (Quad.parse source).mapError (.statement source)

def Role.ofText (name : String) : Except UsageError Role :=
  match Role.ofName? name with
  | some role => .ok role
  | none => .error (.unknownRole (String.ofList (name.toList.map Char.toLower)))

def Order.ofText (name : String) : Except UsageError Order :=
  match Order.ofName? name with
  | some order => .ok order
  | none => .error (.unknownOrder name)

/-- The order of the first byte of a row. -/
def Order.ofNumber (number : Nat) : Except DecodeError Order :=
  match Order.ofNumber? number with
  | some order => .ok order
  | none => .error (.unknownOrder number)

end RdfIndex
