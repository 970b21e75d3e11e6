import RdfIndex.Toml.Value

/-!
# TOML documents

A document is read line by line.  A line is blank, puts an item into the table of the last header,
or is a header that states a table or adds a row to an array of tables.  `Document.read?` gives the
entries of the document, or nothing if a line is malformed or cannot be followed.

A carriage return is allowed only before a line feed, where it does not count.  So the text is read
with line feeds alone, and any carriage return that is left is refused like other control characters.
-/

namespace RdfIndex.Toml

/-- A line of a document. -/
inductive Line where
  /-- Nothing but a comment. -/
  | blank
  /-- A key with its item. -/
  | entry (path : List String) (item : Item)
  /-- The header of a table. -/
  | table (path : List String)
  /-- The header of a row of an array of tables. -/
  | row (path : List String)

/-- Takes the end of a line, with white space and a comment before it. -/
def lineEnd : Scanner Unit := do
  spaces
  if ← Scanner.takes '#' then discard (Scanner.run isTextChar)
  match ← get with
  | [] => return ()
  | _ => Scanner.exactly ['\n']

/-- Takes a header after its first bracket. -/
def header : Scanner Line := do
  if ← Scanner.takes '[' then
    let path ← key
    Scanner.exactly [']', ']']
    return .row path
  else
    let path ← key
    Scanner.exactly [']']
    return .table path

/-- Takes a key and its item. -/
def entry : Scanner Line := do
  let path ← key
  Scanner.exactly ['=']
  spaces
  return .entry path (← value)

/-- Takes a line up to its end. -/
def lineBody : Scanner Line := do
  spaces
  if ← Scanner.takes '[' then header else entry <|> pure .blank

/-- Takes a line. -/
def line : Scanner Line := do
  let l ← lineBody
  lineEnd
  return l

/-- A document that has been read so far. -/
structure Document where
  entries : Entries
  /-- The path of the last header. -/
  path : List String

namespace Document

/-- A document without lines. -/
def empty : Document := ⟨[], []⟩

/-- A header that changes the table before the end of its path. -/
def atHeader? (d : Document) (path : List String) (f : String → Entries → Option Entries) :
    Option Document := do
  let entries ← d.entries.descend? (f (← path.getLast?)) path.dropLast
  return ⟨entries, path⟩

/-- A document with one more line. -/
def follow? (d : Document) : Line → Option Document
  | .blank => some d
  | .entry path item => do
    let entries ← d.entries.descend? (Entries.put? item path) d.path
    return { d with entries }
  | .table path => d.atHeader? path Entries.state?
  | .row path => d.atHeader? path Entries.addRow?

/-- Takes the lines of a document, at most so many. -/
def lines : Nat → Document → Scanner Document
  | 0, _ => failure
  | count + 1, d => do
    match ← get with
    | [] => return d
    | _ =>
      let d ← (d.follow? (← line) : Option Document)
      lines count d

/-- A text without the carriage returns that stand before line feeds. -/
def dropReturns : List Char → List Char
  | [] => []
  | '\r' :: '\n' :: cs => '\n' :: dropReturns cs
  | c :: cs => c :: dropReturns cs

/-- A text without the mark of its byte order. -/
def dropMark : List Char → List Char
  | '\ufeff' :: cs => cs
  | cs => cs

/-- The entries of a document. -/
def read? (text : String) : Option Entries := do
  let (d, _) ← Scanner.bounded (fun count => lines count empty) (dropReturns (dropMark text.toList))
  return d.entries

end Document

end RdfIndex.Toml
