import RdfIndex.Error
import RdfIndex.Number.Total
import RdfIndex.Statement.Pattern

/-!
# How identifiers are laid out in rows

A row starts with the number of its order.  For each role of the order it holds a key hash: the
first bytes of the identifier, which is rotated to the left by the place of the role.  The other
bytes of the identifier are kept beside the row.

A pattern whose bound roles come first in an order is answered by a range of rows of that order.
-/

namespace RdfIndex

/-- The number of bytes of the key hash of each role. -/
structure KeyWidths where
  subject : Nat
  predicate : Nat
  object : Nat
  context : Nat
deriving DecidableEq, Repr

namespace KeyWidths

/-- The widths that are used unless others are chosen. -/
def standard : KeyWidths := ⟨5, 3, 5, 3⟩

def get (w : KeyWidths) : Role → Nat
  | .subject => w.subject
  | .predicate => w.predicate
  | .object => w.object
  | .context => w.context

/-- The first role whose width is zero or more than the size of an identifier. -/
def unfit? (w : KeyWidths) (idSize : Nat) : Option Role :=
  Role.all.find? fun role => w.get role == 0 || idSize < w.get role

/-- Every width must be from one to the size of an identifier. -/
def check (w : KeyWidths) (idSize : Nat) : Except ConfigError Unit :=
  match w.unfit? idSize with
  | none => .ok ()
  | some role => .error (.keyWidth role (w.get role) idSize)

end KeyWidths

/-- A range of rows of one order: from `start` on, before `stop`. -/
structure ScanRange where
  order : Order
  /-- The first row that may be in the range. -/
  start : Bytes
  /-- The first row after the range. -/
  stop : Bytes
deriving DecidableEq, Repr

namespace ScanRange

def contains (r : ScanRange) (row : Bytes) : Bool := !decide (row < r.start) && decide (row < r.stop)

/-- How a range is shown. -/
def display (r : ScanRange) : String :=
  s!"ScanRange({r.order.name} {Hex.encode r.start}..{Hex.encode r.stop})"

end ScanRange

/-- How the identifiers of statements are laid out in rows. -/
structure Layout where
  /-- What identifiers are derived with. -/
  factory : IdFactory
  /-- The widths of the key hashes. -/
  widths : KeyWidths
  /-- Every width is from one to the size of an identifier. -/
  widths_fit : widths.unfit? factory.config.size = none
  /-- The identifier under which the context orders file the default graph. -/
  defaultContext : Identifier
  /-- It is that of an IRI of its own. -/
  defaultContext_eq : defaultContext = factory.idOfIri Internal.defaultContext

namespace Layout

/-- The layout with the given widths, if they fit. -/
def of (factory : IdFactory) (widths : KeyWidths) : Except ConfigError Layout :=
  match h : widths.unfit? factory.config.size with
  | none => .ok ⟨factory, widths, h, factory.idOfIri Internal.defaultContext, rfl⟩
  | some role => .error (.keyWidth role (widths.get role) factory.config.size)

/-- The number of bytes of an identifier. -/
def idSize (l : Layout) : Nat := l.factory.config.size

/-! ## Parts of an identifier -/

/-- A byte string rotated to the left. -/
def rotateLeft (n : Nat) (bytes : Bytes) : Bytes :=
  bytes.drop (n % bytes.length) ++ bytes.take (n % bytes.length)

/-- A byte string rotated to the right. -/
def rotateRight (n : Nat) (bytes : Bytes) : Bytes :=
  bytes.drop (bytes.length - n % bytes.length) ++ bytes.take (bytes.length - n % bytes.length)

/-- The number of bytes by which the identifier in a role is rotated. -/
def shift? (l : Layout) (order : Order) (role : Role) : Option Nat :=
  (order.position? role).map (· % l.idSize)

/-- The rotated identifier in a role.  A role that is not in the order is not rotated. -/
def rotated (l : Layout) (order : Order) (role : Role) (id : Identifier) : Bytes :=
  rotateLeft ((l.shift? order role).getD 0) id.bytes

/-- The key hash of an identifier in a role. -/
def keyHash (l : Layout) (order : Order) (role : Role) (id : Identifier) : Bytes :=
  (l.rotated order role id).take (l.widths.get role)

/-- What the key hash leaves of an identifier in a role. -/
def remainder (l : Layout) (order : Order) (role : Role) (id : Identifier) : Bytes :=
  (l.rotated order role id).drop (l.widths.get role)

/-- The identifier of a key hash and what it leaves. -/
def join (l : Layout) (order : Order) (role : Role) (key remainder : Bytes) : Identifier :=
  ⟨rotateRight ((l.shift? order role).getD 0) (key ++ remainder)⟩

/-- The identifier of a key hash and what it leaves, if they have the bytes of an identifier. -/
def recover (l : Layout) (order : Order) (role : Role) (key remainder : Bytes) :
    Except DecodeError Identifier :=
  if key.length + remainder.length = l.idSize then .ok (l.join order role key remainder)
  else .error (.partSize order role (key.length + remainder.length) l.idSize)

/-! ## Ranges of rows -/

/-- The number of an order as a byte. -/
def orderByte (order : Order) : UInt8 := UInt8.ofNat order.number

/-- The start of all rows of an order that answer a pattern, as far as its first open role. -/
def rangeStart (l : Layout) (order : Order) (p : Pattern) : Bytes :=
  orderByte order :: (order.roles.takeWhile p.binds).flatMap fun role =>
    match p.get? role with
    | some id => l.keyHash order role id
    | none => []

/-- The number of bytes that rows have after the start of a range. -/
def tailWidth (l : Layout) (order : Order) (p : Pattern) : Nat :=
  total l.widths.get (order.roles.dropWhile p.binds)

/-- The range of an order up to the first open role of a pattern.  It stops after all rows that
have its start. -/
def rangeFor (l : Layout) (order : Order) (p : Pattern) : ScanRange :=
  let start := l.rangeStart order p
  ⟨order, start, start ++ List.replicate (l.tailWidth order p + 1) 0xFF⟩

/-- The range of an order that answers a pattern, if the bound roles come first in it. -/
def range? (l : Layout) (order : Order) (p : Pattern) : Option ScanRange :=
  if p.leads order then some (l.rangeFor order p) else none

/-- The range that answers a pattern. -/
def scan (l : Layout) (p : Pattern) : ScanRange := l.rangeFor p.order p

end Layout

end RdfIndex
