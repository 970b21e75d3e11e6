/-!
# Scanners

A scanner takes something from the start of a text and gives back what follows it, or fails.  A
scanner that fails takes nothing, so another one can be tried in its place.
-/

namespace RdfIndex

/-- What takes a value from the start of a text. -/
abbrev Scanner := StateT (List Char) Option

namespace Scanner

/-- Takes a character that passes a test. -/
def one (p : Char → Bool) : Scanner Char
  | [] => none
  | c :: cs => if p c then some (c, cs) else none

/-- Takes the longest run of characters that pass a test. -/
def run (p : Char → Bool) : Scanner (List Char) :=
  fun cs => some (cs.takeWhile p, cs.dropWhile p)

/-- Takes a given text. -/
def exactly (text : List Char) : Scanner Unit :=
  fun cs => if text.isPrefixOf cs then some ((), cs.drop text.length) else none

/-- Takes what a scanner takes, or nothing. -/
def optional {α : Type} (s : Scanner α) : Scanner (Option α) := (some <$> s) <|> pure none

/-- Takes a character if it comes next, and tells whether it does. -/
def takes (c : Char) : Scanner Bool := return (← optional (one (· == c))).isSome

/-- Takes what a bounded scanner takes, with more steps to spend than characters are left. -/
def bounded {α : Type} (s : Nat → Scanner α) : Scanner α := fun cs => s (cs.length + 1) cs

end Scanner

end RdfIndex
