import RdfIndex.Term.Basic
import RdfIndex.Text.Quoted

/-!
# Terms as text

The line-based notation: `<iri>`, `_:label`, `"label"`, `"label"@language`, `"label"^^<datatype>`
and `<< subject <predicate> object >>`.  The datatype of a plain string is left out.  A statement is
its terms and a dot, all with one space between them.

`Term.display` shows the structure of a term, for messages.
-/

namespace RdfIndex

/-- A character inside a quoted label. -/
def escapeChar (c : Char) : List Char :=
  match c with
  | '"' => ['\\', '"']
  | '\\' => ['\\', '\\']
  | '\n' => ['\\', 'n']
  | '\r' => ['\\', 'r']
  | '\t' => ['\\', 't']
  | c => [c]

def quoteLabel (label : List Char) : List Char := '"' :: label.flatMap escapeChar ++ ['"']

/-- An IRI in angle brackets. -/
def bracketIri (iri : List Char) : List Char := '<' :: iri ++ ['>']

/-- The text of a literal. -/
def Literal.toChars : Literal → List Char
  | .typed label datatype =>
    quoteLabel label.toList
      ++ (if datatype = Xsd.string then [] else '^' :: '^' :: bracketIri datatype.toList)
  | .tagged label language _ => quoteLabel label.toList ++ '@' :: language.toList

/-- The text of a term. -/
def Term.toChars : Term → List Char
  | .iri text => bracketIri text.toList
  | .blank label => '_' :: ':' :: label.toList
  | .literal l => l.toChars
  | .triple s p o =>
    '<' :: '<' :: ' ' :: s.toChars ++ ' ' :: bracketIri p.toList ++ ' ' :: o.toChars
      ++ [' ', '>', '>']

def Term.text (t : Term) : String := String.ofList t.toChars

/-- The text of a statement. -/
def Quad.toChars (q : Quad) : List Char :=
  let context :=
    match q.context with
    | none => []
    | some c => ' ' :: c.toChars
  q.subject.toChars ++ ' ' :: q.predicate.toChars ++ ' ' :: q.object.toChars ++ context
    ++ [' ', '.']

/-- The text of a statement. -/
def Quad.text (q : Quad) : String := String.ofList q.toChars

/-! ## Structure -/

def Literal.display (l : Literal) : String :=
  let language :=
    match l.language? with
    | none => "None"
    | some tag => "Some(" ++ Quoted.string tag ++ ")"
  "Literal(Literal \x7b label: " ++ Quoted.string l.label ++ ", datatype: "
    ++ Quoted.string l.datatype ++ ", language: " ++ language ++ " \x7d)"

def Term.display : Term → String
  | .iri text => "Iri(" ++ Quoted.string text ++ ")"
  | .blank label => "BlankNode(" ++ Quoted.string label ++ ")"
  | .literal l => l.display
  | .triple s p o =>
    "Triple(Triple \x7b subject: " ++ s.display ++ ", predicate: Iri(" ++ Quoted.string p
      ++ "), object: " ++ o.display ++ " \x7d)"

end RdfIndex
