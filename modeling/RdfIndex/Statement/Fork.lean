import RdfIndex.Digest.XxHash32
import RdfIndex.Statement.Layout

/-!
# Forks of a scan

A scan is split into a power of two of forks by the first bits of the key hash of its first open
role.  The forks follow one another and leave no gap.

In an order where that identifier is not rotated, its descriptor takes the first four bits of the
key hash if it takes half a byte.  The number of a fork then fixes some of the descriptor, and a
condition on identifiers can rule the fork out: it is asked about one probe for each descriptor that
is still possible.  A probe has the bits of the fork, the descriptor, and zeros.
-/

namespace RdfIndex

def isPowerOfTwo (n : Nat) : Bool := n != 0 && Nat.pow 2 n.log2 == n

/-- A key hash of the given width that starts with the bits of a number. -/
def leadingBits (width bits number : Nat) : Bytes :=
  Bytes.toBigEndian width (number * Nat.pow 2 (8 * width - bits))

/-- The members of a list up to the first one that is accepted, that one included. -/
def askedUntil {α : Type} (accept : α → Bool) : List α → List α
  | [] => []
  | a :: rest => if accept a then [a] else a :: askedUntil accept rest

namespace Layout

/-- The number of bits that tell the forks apart, if the scan can be split on the role. -/
def checkFork (l : Layout) (order : Order) (p : Pattern) (role : Role) (count fork : Nat) :
    Except UsageError Nat :=
  if !isPowerOfTwo count then .error (.forkCount count)
  else if count ≤ fork then .error (.forkNumber fork count)
  else if !p.leads order then .error (.pattern order)
  else if order.position? role ≠ some (order.roles.takeWhile p.binds).length then
    .error (.forkRole order role)
  else if 8 * l.widths.get role < count.log2 then
    .error (.forkBits count.log2 (l.widths.get role) role)
  else .ok count.log2

/-- The first row that may be in a fork. -/
def forkStart (l : Layout) (order : Order) (p : Pattern) (role : Role) (bits fork : Nat) : Bytes :=
  l.rangeStart order p ++ leadingBits (l.widths.get role) bits fork

/-- The range of a fork.  The first fork starts and the last one stops where the scan does. -/
def forkRange (l : Layout) (order : Order) (p : Pattern) (role : Role) (bits fork : Nat) :
    ScanRange :=
  let whole := l.rangeFor order p
  ⟨order,
    if fork = 0 then whole.start else l.forkStart order p role bits fork,
    if fork + 1 = Nat.pow 2 bits then whole.stop else l.forkStart order p role bits (fork + 1)⟩

/-- The descriptor of the identifiers in a role shows in the bits of a fork. -/
def showsDescriptor (l : Layout) (order : Order) (role : Role) (bits : Nat) : Bool :=
  bits != 0 && l.factory.config.nibble && l.shift? order role == some 0

/-- The descriptors that begin with the bits of a fork. -/
def forkDescriptors (bits fork : Nat) : List Nat :=
  let fixed := min bits 4
  (List.range 16).filter fun d => d / Nat.pow 2 (4 - fixed) == fork / Nat.pow 2 (bits - fixed)

/-- The probes of a fork, one for each possible descriptor. -/
def forkProbes (l : Layout) (bits fork : Nat) : List Identifier :=
  (forkDescriptors bits fork).map fun d =>
    ⟨(Roles.ofDescriptor d).pack l.factory.config.nibble (leadingBits l.idSize bits fork)⟩

/-- A fork may hold an identifier that a condition accepts. -/
def forkMayMatch (l : Layout) (order : Order) (role : Role) (bits fork : Nat)
    (accept : Identifier → Bool) : Bool :=
  !l.showsDescriptor order role bits || (l.forkProbes bits fork).any accept

/-- The identifiers that a condition is asked about for a fork, in turn. -/
def forkAsked (l : Layout) (order : Order) (role : Role) (bits fork : Nat)
    (accept : Identifier → Bool) : List Identifier :=
  if l.showsDescriptor order role bits then askedUntil accept (l.forkProbes bits fork) else []

/-- The range of a fork of a scan, or nothing if a condition rules it out. -/
def partitionScan (l : Layout) (order : Order) (p : Pattern) (role : Role) (count fork : Nat)
    (accept? : Option (Identifier → Bool)) : Except UsageError (Option ScanRange) := do
  let bits ← l.checkFork order p role count fork
  if accept?.all (l.forkMayMatch order role bits fork) then
    return some (l.forkRange order p role bits fork)
  else return none

/-- The range of a fork of all rows of an order. -/
def partition (l : Layout) (order : Order) (role : Role) (count fork : Nat) :
    Except UsageError ScanRange :=
  (l.checkFork order .open_ role count fork).map fun bits =>
    l.forkRange order .open_ role bits fork

/-! ## Regions and load parts -/

/-- The keys that split the rows of an order into a power of two of regions. -/
def orderSplits (bits : Nat) (order : Order) : List Bytes :=
  [orderByte order] ::
    (List.range' 1 (Nat.pow 2 bits - 1)).map fun i =>
      [orderByte order, UInt8.ofNat (i * Nat.pow 2 (8 - bits))]

/-- The keys that split the rows of all orders into regions, and the key after all rows. -/
def regionSplits (bits : Nat) : Except UsageError (List Bytes) :=
  if 8 < bits then .error (.splitBits bits)
  else .ok (Order.all.flatMap (orderSplits bits) ++ [[UInt8.ofNat Order.all.length]])

/-- The part into which a row is loaded. -/
def loadPart (row : Bytes) (count : Nat) : Except UsageError Nat :=
  if count = 0 then .error .loadCount else .ok ((XxHash32.hash32 row).toNat % count)

end Layout

end RdfIndex
