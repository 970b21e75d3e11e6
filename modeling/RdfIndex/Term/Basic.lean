import RdfIndex.Term.Names

/-!
# Terms and statements

A term is an IRI, a blank node, a literal or a quoted triple.  The predicate of a quoted triple is
an IRI, so it is kept as the text of one.  A literal has a label and either a datatype or a
language; the datatype of a literal with a language is `rdf:langString`.
-/

namespace RdfIndex

/-- The coarse kind of a term. -/
inductive Kind where
  | iri
  | literal
  | blank
  | triple
deriving DecidableEq, Repr

/-- The name under which a kind is shown. -/
def Kind.name : Kind → String
  | iri => "Iri"
  | literal => "Literal"
  | blank => "BlankNode"
  | triple => "Triple"

/-- A literal. -/
inductive Literal where
  /-- A label with a datatype and without a language. -/
  | typed (label datatype : String)
  | tagged (label language : String) (nonempty : language ≠ "")
deriving DecidableEq

namespace Literal

def label : Literal → String
  | typed label _ => label
  | tagged label _ _ => label

def datatype : Literal → String
  | typed _ datatype => datatype
  | tagged _ _ _ => Rdf.langString

def language? : Literal → Option String
  | typed _ _ => none
  | tagged _ language _ => some language

/-- A plain string. -/
def string (label : String) : Literal := typed label Xsd.string

/-- A label with a language.  An empty tag carries no language and gives a plain string. -/
def lang (label language : String) : Literal :=
  if h : language = "" then string label else tagged label language h

/-- A plain string or a literal with a language. -/
def isString (l : Literal) : Bool := l.language?.isSome || l.datatype == Xsd.string

/-- A literal whose datatype is one of the numeric ones. -/
def isNumeric (l : Literal) : Bool := Xsd.numeric.contains l.datatype

end Literal

/-- A term. -/
inductive Term where
  | iri (text : String)
  /-- A blank node by its label. -/
  | blank (label : String)
  | literal (literal : Literal)
  /-- A quoted triple.  The predicate is the text of an IRI. -/
  | triple (subject : Term) (predicate : String) (object : Term)
deriving DecidableEq

instance : Inhabited Term := ⟨.iri ""⟩

namespace Term

def kind : Term → Kind
  | iri _ => .iri
  | blank _ => .blank
  | literal _ => .literal
  | triple _ _ _ => .triple

/-- The text of an IRI. -/
def iri? : Term → Option String
  | iri text => some text
  | _ => none

/-- Anything but a literal. -/
def isResource : Term → Bool
  | literal _ => false
  | _ => true

/-- A plain string as a term. -/
def string (label : String) : Term := literal (.string label)

end Term

/-- A statement in an optional named graph.  No context is the default graph. -/
structure Quad where
  subject : Term
  predicate : Term
  object : Term
  /-- The named graph. -/
  context : Option Term
deriving DecidableEq

end RdfIndex
