import RdfIndex.Number.Numeral
import RdfIndex.Text.Hex

/-!
# Reports

What a command reports to other programs, as JSON: two spaces for each level of nesting, one field or
item a line, a space after the colon.  In a string the quote, the backslash and the control characters
of ASCII below the space are escaped.
-/

namespace RdfIndex

/-- What a command reports. -/
inductive Report where
  | text (s : String)
  | number (n : Nat)
  /-- A truth value. -/
  | truth (b : Bool)
  | list (items : List Report)
  /-- Named fields. -/
  | record (fields : List (String × Report))

namespace Report

/-- A character of a string. -/
def escape (c : Char) : List Char :=
  match c with
  | '"' => ['\\', '"']
  | '\\' => ['\\', '\\']
  | '\x08' => ['\\', 'b']
  | '\t' => ['\\', 't']
  | '\n' => ['\\', 'n']
  | '\x0c' => ['\\', 'f']
  | '\r' => ['\\', 'r']
  | c =>
    if c.toNat < 0x20 then
      ['\\', 'u', '0', '0', Hex.digit (c.toNat / 16), Hex.digit (c.toNat % 16)]
    else [c]

def quoted (s : String) : List Char := '"' :: s.toList.flatMap escape ++ ['"']

/-- The start of a line at a level of nesting. -/
def newLine (level : Nat) : List Char := '\n' :: List.replicate (2 * level) ' '

/-- Written members between brackets, each on a line of its own. -/
def enclosed (level : Nat) (opening closing : Char) (members : List (List Char)) : List Char :=
  if members = [] then [opening, closing]
  else
    opening :: [','].intercalate (members.map (newLine (level + 1) ++ ·)) ++ newLine level
      ++ [closing]

mutual

/-- A report that starts at a level of nesting. -/
def write (level : Nat) : Report → List Char
  | .text s => quoted s
  | .number n => Numeral.digits n
  | .truth b => if b then ['t', 'r', 'u', 'e'] else ['f', 'a', 'l', 's', 'e']
  | .list items => enclosed level '[' ']' (writeItems (level + 1) items)
  | .record fields => enclosed level '\x7b' '\x7d' (writeFields (level + 1) fields)

def writeItems (level : Nat) : List Report → List (List Char)
  | [] => []
  | item :: items => write level item :: writeItems level items

/-- The fields of a record. -/
def writeFields (level : Nat) : List (String × Report) → List (List Char)
  | [] => []
  | (name, field) :: fields =>
    (quoted name ++ ':' :: ' ' :: write level field) :: writeFields level fields

end

/-- The text of a report. -/
def render (r : Report) : String := String.ofList (r.write 0)

end Report

end RdfIndex
