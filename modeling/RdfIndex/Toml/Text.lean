import RdfIndex.Text.CodePoint
import RdfIndex.Toml.Scanner

/-!
# Strings and keys of TOML

A string stands between double quotes, where a backslash starts an escape, or between single quotes,
where it does not.  With three quotes on each side a string may have several lines: a line end right
after the opening quotes is dropped, and up to two quotes may stand before the closing ones.

A key is one or more parts with dots between them.  A part is a string of one line, or a run of
letters, digits, hyphens and underscores.

Line ends are line feeds here; see `Document`.
-/

namespace RdfIndex.Toml

/-- The white space inside a line. -/
def isSpace (c : Char) : Bool := c == ' ' || c == '\t'

/-- A character of a string or a comment: the tab, and every character that is no control character
of ASCII. -/
def isTextChar (c : Char) : Bool := c == '\t' || (0x20 ≤ c.toNat && c.toNat != 0x7F)

/-- Takes white space. -/
def spaces : Scanner Unit := discard (Scanner.run isSpace)

/-! ## Strings -/

/-- How a string is written. -/
structure StringForm where
  quote : Char
  /-- Three quotes stand on each side, and there may be several lines. -/
  lines : Bool
  /-- A backslash starts an escape. -/
  escapes : Bool
deriving DecidableEq, Repr

/-- Where the reader of a string stands. -/
inductive Escape where
  /-- Not in an escape. -/
  | none
  /-- After a backslash. -/
  | slash
  /-- In the digits of a code point, of which `left + 1` are still to come. -/
  | code (left value : Nat)
  /-- In the white space between a backslash and the line end that must follow it. -/
  | lineEnd
  /-- In the white space and line ends that are dropped after such a line end. -/
  | margin
deriving DecidableEq, Repr

/-- The character that a letter after a backslash stands for. -/
def shortEscape? (c : Char) : Option Char :=
  match c with
  | 'b' => some '\x08'
  | 'f' => some '\x0c'
  | 'n' => some '\n'
  | 'r' => some '\r'
  | 't' => some '\t'
  | '"' => some '"'
  | '\\' => some '\\'
  | _ => none

namespace StringForm

/-- A character outside of escapes: where the reader stands after it, and what it stands for. -/
def plainStep? (form : StringForm) (c : Char) : Option (Escape × List Char) :=
  if form.escapes && c == '\\' then some (.slash, [])
  else if isTextChar c || (form.lines && c == '\n') then some (.none, [c])
  else none

/-- A character after a backslash. -/
def slashStep? (form : StringForm) (c : Char) : Option (Escape × List Char) :=
  if c == 'u' then some (.code 3 0, [])
  else if c == 'U' then some (.code 7 0, [])
  else if form.lines && isSpace c then some (.lineEnd, [])
  else if form.lines && c == '\n' then some (.margin, [])
  else (shortEscape? c).map fun c => (.none, [c])

/-- A digit of a code point. -/
def codeStep? (left value : Nat) (c : Char) : Option (Escape × List Char) := do
  let n := value * 16 + (← CodePoint.hexValue? c)
  match left with
  | 0 => return (.none, [← CodePoint.char? n])
  | left + 1 => return (.code left n, [])

/-- A character of a string: where the reader stands after it, and what it stands for. -/
def step? (form : StringForm) (e : Escape) (c : Char) : Option (Escape × List Char) :=
  match e with
  | .none => form.plainStep? c
  | .slash => form.slashStep? c
  | .code left value => codeStep? left value c
  | .lineEnd =>
    if isSpace c then some (.lineEnd, []) else if c == '\n' then some (.margin, []) else none
  | .margin => if isSpace c || c == '\n' then some (.margin, []) else form.plainStep? c

/-- What follows the closing quotes, and the quotes of the string before them, if the string closes
here. -/
def close? (form : StringForm) : List Char → Option (List Char × List Char)
  | [] => none
  | c :: cs =>
    if c ≠ form.quote then none
    else if !form.lines then some (cs, [])
    else
      let quotes := 1 + (cs.takeWhile (· == form.quote)).length
      if quotes < 3 then none
      else
        let own := min quotes 5 - 3
        some (cs.drop (own + 2), List.replicate own c)

/-- Takes the rest of a string and its closing quotes.  `done` holds the characters before, last one
first. -/
def body (form : StringForm) (e : Escape) (done : List Char) : Scanner String
  | [] => none
  | c :: cs =>
    match if e = .none ∨ e = .margin then form.close? (c :: cs) else none with
    | some (rest, own) => some (String.ofList (done.reverse ++ own), rest)
    | none =>
      match form.step? e c with
      | none => none
      | some (e, out) => body form e (out.reverse ++ done) cs

/-- Takes a string after its opening quotes. -/
def read (form : StringForm) : Scanner String := do
  if form.lines then discard (Scanner.takes '\n')
  form.body .none []

end StringForm

/-- Takes a string of one line. -/
def lineString : Scanner String := do
  let quote ← Scanner.one fun c => c == '"' || c == '\''
  StringForm.read ⟨quote, false, quote == '"'⟩

/-- Takes a string of several lines. -/
def linesString : Scanner String := do
  let quote ← Scanner.one fun c => c == '"' || c == '\''
  Scanner.exactly [quote, quote]
  StringForm.read ⟨quote, true, quote == '"'⟩

/-- Takes a string. -/
def string : Scanner String := linesString <|> lineString

/-! ## Keys -/

/-- A character of a part of a key that is not quoted. -/
def isBareChar (c : Char) : Bool := c.isAlphanum || c == '-' || c == '_'

/-- Takes a part of a key that is not quoted. -/
def bare : Scanner String := do
  match ← Scanner.run isBareChar with
  | [] => failure
  | cs => return String.ofList cs

/-- Takes the parts of a key, at most so many, and the white space around them. -/
def keyParts : Nat → Scanner (List String)
  | 0 => failure
  | count + 1 => do
    spaces
    let part ← lineString <|> bare
    spaces
    if ← Scanner.takes '.' then return part :: (← keyParts count) else return [part]

/-- The greatest depth to which arrays and tables may be nested, and the greatest number of parts of
a key. -/
def depthLimit : Nat := 79

/-- Takes a key and the white space around it. -/
def key : Scanner (List String) := keyParts depthLimit

end RdfIndex.Toml
