/-!
# Characters by number

A character can be named by its code point in hexadecimal.  Digits of either case count.  A number
beyond the last code point, or that of a surrogate, names none.
-/

namespace RdfIndex.CodePoint

/-- The value of a hexadecimal digit. -/
def hexValue? (c : Char) : Option Nat :=
  if '0' ≤ c ∧ c ≤ '9' then some (c.toNat - 0x30)
  else if 'a' ≤ c ∧ c ≤ 'f' then some (c.toNat - 0x57)
  else if 'A' ≤ c ∧ c ≤ 'F' then some (c.toNat - 0x37)
  else none

/-- The number that hexadecimal digits write. -/
def hexNumber? (ds : List Char) : Option Nat :=
  if ds = [] then none
  else ds.foldlM (fun n c => (hexValue? c).map fun d => n * 16 + d) 0

/-- The character with a code point, unless it is beyond the last one or a surrogate. -/
def char? (n : Nat) : Option Char :=
  if h : n.isValidChar then some (Char.ofNatAux n h) else none

end RdfIndex.CodePoint
