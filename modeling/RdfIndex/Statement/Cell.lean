import RdfIndex.Statement.Layout

/-!
# Cells of statements

A statement is stored as one cell in each order.  A cell has a row with the key hashes, a qualifier
with what they leave of the identifiers, and a value with the encoded terms.  In an order without
context the qualifier ends with the whole identifier of the context, if there is one.  In an order
with context the default graph is filed under an identifier of its own.
-/

namespace RdfIndex

/-- A statement in the named graph of the default context is one of the default graph. -/
def Quad.normalize (q : Quad) : Quad :=
  if q.context = some (.iri Internal.defaultContext) then { q with context := none } else q

/-- The encoded terms of a statement. -/
structure EncodedQuad where
  subject : Encoded
  predicate : Encoded
  object : Encoded
  context : Option Encoded
deriving DecidableEq, Repr

/-- The value of the cells of a statement: three terms with their lengths, and the context. -/
def EncodedQuad.valueBytes (e : EncodedQuad) : Bytes :=
  Varint.withLength e.subject.bytes ++ Varint.withLength e.predicate.bytes
    ++ Varint.withLength e.object.bytes ++ (e.context.map Encoded.bytes).getD []

/-- A cell of a statement. -/
structure Cell where
  order : Order
  row : Bytes
  qualifier : Bytes
  value : Bytes
deriving DecidableEq, Repr

/-- What a cell holds. -/
structure CellContent where
  /-- The identifiers of the statement. -/
  ids : StatementIds
  /-- The statement. -/
  quad : Quad
deriving DecidableEq

namespace Layout

/-! ## Writing -/

/-- The encoded terms of a statement. -/
def encodeTerms (l : Layout) (q : Quad) : Except InsideCharacter EncodedQuad := do
  let q := q.normalize
  let subject ← l.factory.codec.encode q.subject
  let predicate ← l.factory.codec.encode q.predicate
  let object ← l.factory.codec.encode q.object
  let context ← q.context.mapM l.factory.codec.encode
  return ⟨subject, predicate, object, context⟩

/-- The identifiers of encoded terms. -/
def idsOf (l : Layout) (e : EncodedQuad) : StatementIds :=
  ⟨l.factory.derive e.subject, l.factory.derive e.predicate, l.factory.derive e.object,
    e.context.map l.factory.derive⟩

/-- The identifier under which a role is filed.  The default graph has one as well. -/
def filed (l : Layout) (ids : StatementIds) (role : Role) : Identifier :=
  (ids.get? role).getD l.defaultContext

def row (l : Layout) (order : Order) (ids : StatementIds) : Bytes :=
  orderByte order :: order.roles.flatMap fun role => l.keyHash order role (l.filed ids role)

/-- What the row leaves of the identifiers in an order. -/
def remainders (l : Layout) (order : Order) (ids : StatementIds) : Bytes :=
  order.roles.flatMap fun role => l.remainder order role (l.filed ids role)

def qualifier (l : Layout) (order : Order) (ids : StatementIds) : Bytes :=
  l.remainders order ids
    ++ (if order.hasContext then [] else (ids.context.map Identifier.bytes).getD [])

def cellIn (l : Layout) (ids : StatementIds) (e : EncodedQuad) (order : Order) : Cell :=
  ⟨order, l.row order ids, l.qualifier order ids, e.valueBytes⟩

/-- The cells of a statement, one for each order. -/
def cellsFor (l : Layout) (ids : StatementIds) (e : EncodedQuad) : List Cell :=
  Order.all.map (l.cellIn ids e)

/-- The cells of a statement. -/
def cells (l : Layout) (q : Quad) : Except InsideCharacter (List Cell) :=
  (l.encodeTerms q).map fun e => l.cellsFor (l.idsOf e) e

/-! ## Reading -/

/-- The number of bytes of a row. -/
def rowSize (l : Layout) (order : Order) : Nat := 1 + total l.widths.get order.roles

/-- The number of bytes that the key hash of a role leaves of an identifier. -/
def remainderWidth (l : Layout) (role : Role) : Nat := l.idSize - l.widths.get role

/-- The number of bytes that a row leaves of the identifiers. -/
def remaindersSize (l : Layout) (order : Order) : Nat := total l.remainderWidth order.roles

/-- The roles before a role in an order. -/
def rolesBefore (order : Order) (role : Role) : List Role := order.roles.takeWhile (· != role)

/-- The key hash of a role in a row. -/
def keyAt (l : Layout) (order : Order) (role : Role) (row : Bytes) : Bytes :=
  (row.drop (1 + total l.widths.get (rolesBefore order role))).take (l.widths.get role)

/-- What the key hash of a role leaves, in a qualifier. -/
def remainderAt (l : Layout) (order : Order) (role : Role) (qualifier : Bytes) : Bytes :=
  (qualifier.drop (total l.remainderWidth (rolesBefore order role))).take (l.remainderWidth role)

/-- The identifier in a role of a row and its qualifier. -/
def idAt (l : Layout) (order : Order) (role : Role) (row qualifier : Bytes) : Identifier :=
  l.join order role (l.keyAt order role row) (l.remainderAt order role qualifier)

/-- The qualifier has the size that the order asks for. -/
def fitsQualifier (l : Layout) (order : Order) (qualifier : Bytes) : Bool :=
  qualifier.length == l.remaindersSize order
    || (!order.hasContext && qualifier.length == l.remaindersSize order + l.idSize)

/-- The identifier of the context.  The default graph has none. -/
def contextAt (l : Layout) (order : Order) (row qualifier : Bytes) : Option Identifier :=
  if order.hasContext then
    let id := l.idAt order .context row qualifier
    if id = l.defaultContext then none else some id
  else
    match qualifier.drop (l.remaindersSize order) with
    | [] => none
    | bytes => some ⟨bytes⟩

/-- The identifiers of a row and its qualifier. -/
def readIds (l : Layout) (order : Order) (row qualifier : Bytes) :
    Except DecodeError StatementIds :=
  if row.length ≠ l.rowSize order ∨ row.head? ≠ some (orderByte order) then
    .error (.row order row.length (l.rowSize order))
  else if !l.fitsQualifier order qualifier then .error (.qualifier order qualifier.length)
  else
    .ok ⟨l.idAt order .subject row qualifier, l.idAt order .predicate row qualifier,
      l.idAt order .object row qualifier, l.contextAt order row qualifier⟩

/-- Reads a term with its length. -/
def readMember (l : Layout) : Reader Term := do
  Reader.check (l.factory.codec.readValue (← Reader.withLength))

/-- Reads the context from the bytes that are left, if there are any. -/
def readContext (l : Layout) : Reader (Option Term) := do
  match ← Reader.rest with
  | [] => return none
  | bytes => return some (← Reader.check (l.factory.codec.readValue bytes))

/-- Reads the value of a cell. -/
def readQuad (l : Layout) : Reader Quad := do
  let subject ← l.readMember
  let predicate ← l.readMember
  let object ← l.readMember
  let context ← l.readContext
  return ⟨subject, predicate, object, context⟩

/-- What a cell holds.  The identifiers and the value must agree on whether there is a context. -/
def readCell (l : Layout) (order : Order) (row qualifier value : Bytes) :
    Except DecodeError CellContent := do
  let ids ← l.readIds order row qualifier
  let quad ← (l.readQuad (.start value)).1
  if quad.context.isSome = ids.context.isSome then return ⟨ids, quad⟩
  else throw (.context order)

end Layout

end RdfIndex
