import RdfIndex.Statement.Cell
import RdfIndex.Statement.Fork
import RdfIndex.Store.Cells

/-!
# Stores of statements

A statement is stored as its six cells.  A pattern is answered by the range of rows of one order:
the cells of the range are read, and those are kept whose identifiers agree with the pattern.
-/

namespace RdfIndex

/-- The graphs that a lookup covers. -/
inductive GraphSelector where
  | any
  | default
  | named (name : Term)
deriving DecidableEq

/-- A store of statements. -/
structure QuadStore where
  /-- How identifiers are laid out in rows. -/
  layout : Layout
  store : CellStore

namespace QuadStore

/-- The store without statements. -/
def empty (layout : Layout) : QuadStore := ⟨layout, .empty⟩

/-- The store with a statement. -/
def insert (s : QuadStore) (q : Quad) : Except InsideCharacter QuadStore := do
  let cells ← s.layout.cells q
  return { s with store := cells.foldl (fun t c => t.put c.row c.qualifier c.value) s.store }

/-- The store without a statement, and whether it was there. -/
def remove (s : QuadStore) (q : Quad) : Except InsideCharacter (QuadStore × Bool) := do
  let cells ← s.layout.cells q
  let left := cells.foldl (fun t c => (t.delete c.row c.qualifier).1) s.store
  let existed := cells.any fun c =>
    c.order == .spo && (s.store.get? c.row c.qualifier).isSome
  return ({ s with store := left }, existed)

/-- What a graph selector binds the context to. -/
def contextFor (s : QuadStore) : GraphSelector → Except InsideCharacter (Option Identifier)
  | .any => .ok none
  | .default => .ok (some s.layout.defaultContext)
  | .named g => (s.layout.factory.id g).map some

/-- The pattern of some terms and a graph selector. -/
def pattern (s : QuadStore) (subject predicate object : Option Term) (graph : GraphSelector) :
    Except InsideCharacter Pattern := do
  let subject ← subject.mapM s.layout.factory.id
  let predicate ← predicate.mapM s.layout.factory.id
  let object ← object.mapM s.layout.factory.id
  let context ← s.contextFor graph
  return { subject, predicate, object, context }

/-- The identifiers of a cell agree with a pattern.  The default graph agrees with the identifier
under which it is filed. -/
def accepts (s : QuadStore) (p : Pattern) (ids : StatementIds) : Bool :=
  p.covers { ids with context := some (s.layout.filed ids .context) }

/-- The cells of a range whose identifiers agree with a pattern. -/
def collect (s : QuadStore) (p : Pattern) (range : ScanRange) :
    Except DecodeError (List CellContent) := do
  let contents ← (s.store.scan range.start range.stop).mapM fun c =>
    s.layout.readCell range.order c.row c.qualifier c.value
  return contents.filter fun c => s.accepts p c.ids

/-- The cells that answer a pattern. -/
def find (s : QuadStore) (p : Pattern) : Except DecodeError (List CellContent) :=
  s.collect p (s.layout.scan p)

/-- The statements with the given terms in the given graphs. -/
def findQuads (s : QuadStore) (subject predicate object : Option Term) (graph : GraphSelector) :
    Except Error (List Quad) := do
  let p ← s.pattern subject predicate object graph
  let found ← s.find p
  return found.map CellContent.quad

/-- A statement is in the store. -/
def contains (s : QuadStore) (q : Quad) : Except Error Bool := do
  let graph : GraphSelector :=
    match q.context with
    | some g => .named g
    | none => .default
  let found ← s.findQuads (some q.subject) (some q.predicate) (some q.object) graph
  return !found.isEmpty

/-- The role on which the scan of a pattern is split: the first open one. -/
def forkRole (p : Pattern) : Role := (p.order.roles.find? fun role => !p.binds role).getD .object

/-- The cells of a fork of the scan of a pattern.  There are none if a condition rules the fork
out. -/
def findFork (s : QuadStore) (p : Pattern) (count fork : Nat)
    (accept? : Option (Identifier → Bool)) : Except Error (List CellContent) := do
  let range? ← s.layout.partitionScan p.order p (forkRole p) count fork accept?
  match range? with
  | some range => s.collect p range
  | none => return []

/-- The identifiers that a condition is asked about for a fork of the scan of a pattern. -/
def forkAsked (s : QuadStore) (p : Pattern) (count fork : Nat) (accept : Identifier → Bool) :
    List Identifier :=
  match s.layout.checkFork p.order p (forkRole p) count fork with
  | .error _ => []
  | .ok bits => s.layout.forkAsked p.order (forkRole p) bits fork accept

end QuadStore

end RdfIndex
