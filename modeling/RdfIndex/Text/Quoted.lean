import RdfIndex.Text.Unprintable

/-!
# Quoted text

How a text is shown inside a message: between double quotes, with the quote, the backslash and
every unprintable character escaped.  The tab, the line ends and the null character have short
escapes; any other unprintable character is written by its number in lower-case hexadecimal.  A
single character is shown between single quotes, which then take the place of the double ones.
-/

namespace RdfIndex.Quoted

/-- The escape of a character by its number, or the character itself when it can be printed. -/
def numbered (c : Char) : List Char :=
  if Unprintable.isUnprintable c then
    ['\\', 'u', '\x7b'] ++ Nat.toDigits 16 c.toNat ++ ['\x7d']
  else [c]

/-- One character of a text in the quotes `quote`. -/
def escape (quote c : Char) : List Char :=
  if c = quote then ['\\', c]
  else
    match c with
    | '\\' => ['\\', '\\']
    | '\t' => ['\\', 't']
    | '\r' => ['\\', 'r']
    | '\n' => ['\\', 'n']
    | '\x00' => ['\\', '0']
    | c => numbered c

/-- A text in the quotes `quote`. -/
def within (quote : Char) (cs : List Char) : List Char :=
  quote :: cs.flatMap (escape quote) ++ [quote]

/-- A text in double quotes. -/
def string (s : String) : String := String.ofList (within '"' s.toList)

/-- A character in single quotes. -/
def character (c : Char) : String := String.ofList (within '\'' [c])

end RdfIndex.Quoted
