/-!
# Starts of IRIs

A few common starts of IRIs have a code of one byte, which is their place in the list.  An IRI is
stored with the longest start that it has.

`splitNamespace?` cuts an IRI after its last `#`, else after its last `/`, else after its last `:`.
-/

namespace RdfIndex

namespace IriStart

/-- The starts, by code. -/
def all : List String :=
  ["http://",
    "https://",
    "http://www.",
    "https://www.",
    "http://dx.doi.org/",
    "https://doi.org/",
    "urn:",
    "urn:uuid:",
    "mailto:",
    "file://",
    "tag:",
    "https://en.wikipedia.org/wiki/"]

/-- The start with a code. -/
def ofCode? (code : Nat) : Option String := all[code]?

/-- What follows a start in a text. -/
def strip? (start text : List Char) : Option (List Char) :=
  if start.isPrefixOf text then some (text.drop start.length) else none

/-- The longest of some starts that a text has, with its code.  Codes count from `code` on. -/
def longestFrom? (iri : List Char) (code : Nat) : List String → Option (Nat × String)
  | [] => none
  | start :: starts =>
    let found := longestFrom? iri (code + 1) starts
    if start.toList.isPrefixOf iri then
      match found with
      | none => some (code, start)
      | some (other, longer) =>
        if start.length ≤ longer.length then some (other, longer) else some (code, start)
    else found

/-- The longest start that an IRI has, with its code. -/
def longest? (iri : String) : Option (Nat × String) := longestFrom? iri.toList 0 all

end IriStart

/-- A text cut after the last place where a character stands. -/
def cutAfterLast? (c : Char) (text : List Char) : Option (List Char × List Char) :=
  if c ∈ text then
    let back := text.reverse
    some ((back.dropWhile (· != c)).reverse, (back.takeWhile (· != c)).reverse)
  else none

/-- The namespace and the local name of an IRI. -/
def splitNamespace? (iri : String) : Option (String × String) :=
  let cs := iri.toList
  ((cutAfterLast? '#' cs).or ((cutAfterLast? '/' cs).or (cutAfterLast? ':' cs))).map
    fun (ns, localName) => (String.ofList ns, String.ofList localName)

end RdfIndex
