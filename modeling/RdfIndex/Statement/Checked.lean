import RdfIndex.Encoding.Checked
import RdfIndex.Statement.Cell

/-!
# Reading cells with the numbers of a machine

A machine reads a cell in one pass over the roles of the order.  It adds up the widths for the size
of a row, subtracts that from the bytes of all identifiers for the size of what is left of them, and
takes the parts of each role from the row and from the qualifier by checked reads.  The identifiers
are kept with their roles, and those of a statement are looked up among them.
-/

namespace RdfIndex

namespace Layout

/-! ## Identifiers -/

/-- The number of bytes of a row, and of what it leaves of the identifiers. -/
def sizesChecked (l : Layout) (order : Order) : Except Stop (Nat × Nat) := do
  let widths ← Machine.sum 8 (order.roles.map l.widths.get)
  let rowSize ← Machine.unsigned 8 (1 + widths)
  let bytes ← Machine.unsigned 8 (order.roles.length * l.idSize)
  return (rowSize, ← Machine.difference (← Machine.unsigned 8 (bytes + 1)) rowSize)

/-- Whether the whole identifier of a context comes after what the row leaves of the identifiers.  A
qualifier of a size that is neither is refused. -/
def endsWithContext (l : Layout) (order : Order) (qualifier : Bytes) (leftSize : Nat) :
    Except Stop Bool := do
  let refusal := Stop.failed (.decode (.qualifier order qualifier.length))
  if qualifier.length = leftSize then return false
  if order.hasContext then throw refusal
  let wholeSize ← Machine.unsigned 8 (leftSize + l.idSize)
  if qualifier.length ≠ wholeSize then throw refusal
  return true

/-- The identifier of a key hash and what it leaves. -/
def recoverChecked (l : Layout) (order : Order) (role : Role) (key remainder : Bytes) :
    Except Stop Identifier := do
  let bytes := key ++ remainder
  if bytes.length ≠ l.idSize then
    throw (.failed (.decode (.partSize order role bytes.length l.idSize)))
  let places ← Machine.remainder ((l.shift? order role).getD 0) bytes.length
  Stop.ofDecode (l.factory.ofBytes (← Machine.rotateRight bytes places))

/-- The identifiers of some roles, whose key hashes and what these leave start at the given offsets,
and where the last of them ends in the qualifier. -/
def recoverIds (l : Layout) (order : Order) (keys qualifier : Bytes) :
    List Role → Nat → Nat → Except Stop (List (Role × Identifier) × Nat)
  | [], _, offset => .ok ([], offset)
  | role :: roles, keyOffset, offset => do
    let (key, keyOffset) ← Checked.take (l.widths.get role) keys keyOffset
    let width ← Machine.difference l.idSize (l.widths.get role)
    let (remainder, offset) ← Checked.take width qualifier offset
    let id ← l.recoverChecked order role key remainder
    let (ids, offset) ← l.recoverIds order keys qualifier roles keyOffset offset
    return ((role, id) :: ids, offset)

/-- The identifier of the context: the whole one at the end of the qualifier, or the one of the role
unless the default graph is filed under it. -/
def contextChecked (l : Layout) (whole : Bool) (ids : List (Role × Identifier)) (qualifier : Bytes)
    (offset : Nat) : Except Stop (Option Identifier) := do
  if whole then
    let (bytes, _) ← Checked.rest qualifier offset
    return some (← Stop.ofDecode (l.factory.ofBytes bytes))
  else return (ids.lookup .context).filter (· ≠ l.defaultContext)

/-- The identifier of a role, which must be among those of the order. -/
def found (order : Order) (ids : List (Role × Identifier)) (role : Role) :
    Except Stop Identifier :=
  match ids.lookup role with
  | some id => .ok id
  | none => .error (.failed (.decode (.roleMissing order)))

/-- The identifiers of a row and its qualifier. -/
def readIdsChecked (l : Layout) (order : Order) (row qualifier : Bytes) :
    Except Stop StatementIds := do
  let (rowSize, leftSize) ← l.sizesChecked order
  if row.length ≠ rowSize ∨ row.head? ≠ some (orderByte order) then
    throw (.failed (.decode (.row order row.length rowSize)))
  let whole ← l.endsWithContext order qualifier leftSize
  let keys ← Machine.slice row 1 row.length
  let (ids, offset) ← l.recoverIds order keys qualifier order.roles 0 0
  let context ← l.contextChecked whole ids qualifier offset
  let subject ← found order ids .subject
  let predicate ← found order ids .predicate
  let object ← found order ids .object
  return ⟨subject, predicate, object, context⟩

/-! ## Cells -/

/-- The term of a whole byte string. -/
def valueChecked (l : Layout) (bytes : Bytes) : Except Stop Term :=
  (l.factory.codec.decodeChecked bytes 0).map Prod.fst

/-- Reads a term with its length. -/
def memberChecked (l : Layout) : Checked Term := do
  Checked.step (l.valueChecked (← Checked.withLength))

/-- Reads the context from the bytes that are left, if there are any. -/
def graphChecked (l : Layout) : Checked (Option Term) := do
  match ← Checked.rest with
  | [] => return none
  | bytes => return some (← Checked.step (l.valueChecked bytes))

/-- Reads the value of a cell. -/
def quadChecked (l : Layout) : Checked Quad := do
  let subject ← l.memberChecked
  let predicate ← l.memberChecked
  let object ← l.memberChecked
  let context ← l.graphChecked
  return ⟨subject, predicate, object, context⟩

/-- What a cell holds, as a machine reads it. -/
def readCellChecked (l : Layout) (order : Order) (row qualifier value : Bytes) :
    Except Stop CellContent := do
  let ids ← l.readIdsChecked order row qualifier
  let (quad, _) ← l.quadChecked value 0
  if quad.context.isSome ≠ ids.context.isSome then
    throw (.failed (.decode (.context order)))
  return ⟨ids, quad⟩

end Layout

end RdfIndex
