import RdfIndex.Toml.Moment
import RdfIndex.Toml.Number
import RdfIndex.Toml.Table
import RdfIndex.Toml.Text

/-!
# Values of TOML

A value is a string, a truth value, a number, a date or time, an array, or a table between braces.
An array may have several lines, with comments, and a comma after its last value.  A table between
braces may not.  The depth of nesting is bounded, and the recursion is on what is left of it.
-/

namespace RdfIndex.Toml

/-- Takes a truth value. -/
def boolean : Scanner Bool :=
  (do Scanner.exactly ['t', 'r', 'u', 'e']; return true)
    <|> (do Scanner.exactly ['f', 'a', 'l', 's', 'e']; return false)

/-- Takes a value without parts. -/
def scalar : Scanner Item :=
  (.string <$> string) <|> (.boolean <$> boolean) <|> (do moment; return .moment)
    <|> (do float; return .float) <|> (.integer <$> integer)

/-- A text without the white space, the line ends and the comments it starts with.  The first
argument tells whether the text starts inside a comment. -/
def skipFiller : Bool → List Char → List Char
  | _, [] => []
  | true, c :: cs =>
    if isTextChar c then skipFiller true cs else if c = '\n' then skipFiller false cs else c :: cs
  | false, c :: cs =>
    if isSpace c || c == '\n' then skipFiller false cs
    else if c = '#' then skipFiller true cs
    else c :: cs

/-- Takes white space, line ends and comments. -/
def filler : Scanner Unit := fun cs => some ((), skipFiller false cs)

/-- Takes the values of an array and its closing bracket, in at most so many steps. -/
def arrayItems (value : Scanner Item) : Nat → Scanner (List Item)
  | 0 => failure
  | steps + 1 => do
    filler
    if ← Scanner.takes ']' then return []
    let item ← value
    filler
    if ← Scanner.takes ',' then return item :: (← arrayItems value steps)
    Scanner.exactly [']']
    return [item]

/-- Takes an array after its opening bracket. -/
def array (value : Scanner Item) : Scanner Item :=
  .array <$> Scanner.bounded (arrayItems value)

/-- Takes the entries of a table between braces and its closing brace, in at most so many steps. -/
def braceEntries (value : Scanner Item) : Nat → Entries → Scanner Entries
  | 0, _ => failure
  | steps + 1, entries => do
    let path ← key
    Scanner.exactly ['=']
    spaces
    let item ← value
    spaces
    let entries ← (entries.put? item path : Option Entries)
    if ← Scanner.takes ',' then return ← braceEntries value steps entries
    Scanner.exactly ['\x7d']
    return entries

/-- Takes a table after its opening brace. -/
def braceTable (value : Scanner Item) : Scanner Item :=
  .table .closed <$>
    ((do spaces; Scanner.exactly ['\x7d']; return [])
      <|> Scanner.bounded fun steps => braceEntries value steps [])

/-- Takes a value in which arrays and tables are nested at most so deep. -/
def valueUpTo : Nat → Scanner Item
  | 0 => scalar
  | depth + 1 => do
    if ← Scanner.takes '[' then array (valueUpTo depth)
    else if ← Scanner.takes '\x7b' then braceTable (valueUpTo depth)
    else scalar

/-- Takes a value. -/
def value : Scanner Item := valueUpTo depthLimit

end RdfIndex.Toml
