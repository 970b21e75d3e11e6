import RdfIndex.Identifier.Cache

/-!
# Derivations that are counted and remembered

A deriver derives identifiers with a cache, if it has one, and counts what it does.  A remembered
value keeps a snapshot of its encoded form and its identifier, with the generation of the deriver
that they belong to.  A deriver of another generation does not use the snapshot but replaces it.
-/

namespace RdfIndex

/-- What a deriver has done. -/
structure DeriverCounts where
  /-- Identifiers that were computed. -/
  derivations : Nat
  /-- Identifiers that were found in the cache. -/
  cacheHits : Nat
  /-- Identifiers that were sought in the cache and not found. -/
  cacheMisses : Nat
  /-- Snapshots that were used. -/
  snapshotHits : Nat
  /-- Snapshots that were taken anew. -/
  snapshotMisses : Nat
deriving DecidableEq, Repr

/-- What identifiers are derived with, step by step. -/
structure Deriver where
  /-- How they are derived. -/
  factory : IdFactory
  /-- The number that tells derivers apart. -/
  generation : Nat
  /-- Identifiers that were derived before. -/
  cache : Option IdCache
  /-- What was done. -/
  counts : DeriverCounts

namespace Deriver

/-- A deriver that has done nothing. -/
def fresh (factory : IdFactory) (generation : Nat) (cache : Option IdCache) : Deriver :=
  ⟨factory, generation, cache, ⟨0, 0, 0, 0, 0⟩⟩

/-- Counts a computed identifier. -/
def countDerivation (d : Deriver) : Deriver :=
  { d with counts := { d.counts with derivations := d.counts.derivations + 1 } }

/-- Counts a search in the cache. -/
def countCache (d : Deriver) (hit : Bool) : Deriver :=
  if hit then { d with counts := { d.counts with cacheHits := d.counts.cacheHits + 1 } }
  else { d with counts := { d.counts with cacheMisses := d.counts.cacheMisses + 1 } }

/-- Counts a look at a snapshot. -/
def countSnapshot (d : Deriver) (hit : Bool) : Deriver :=
  if hit then { d with counts := { d.counts with snapshotHits := d.counts.snapshotHits + 1 } }
  else { d with counts := { d.counts with snapshotMisses := d.counts.snapshotMisses + 1 } }

/-- The identifier of an encoded value, from the cache or computed and put into it. -/
def derive (d : Deriver) (e : Encoded) : Identifier × Deriver :=
  match d.cache with
  | none => (d.factory.derive e, d.countDerivation)
  | some cache =>
    match cache.get? e with
    | (some id, cache) => (id, { d with cache := some cache }.countCache true)
    | (none, cache) =>
      let id := d.factory.derive e
      (id, ({ d with cache := some (cache.put e id) }.countCache false).countDerivation)

def id (d : Deriver) (t : Term) : Except InsideCharacter (Identifier × Deriver) :=
  (d.factory.codec.encode t).map d.derive

end Deriver

/-- An encoded form and an identifier of a value. -/
structure Snapshot where
  /-- The generation of the deriver that they belong to. -/
  generation : Nat
  id : Identifier
  /-- The encoded form. -/
  encoded : Encoded
deriving DecidableEq, Repr

/-- A value that remembers its identifier. -/
structure Remembered where
  value : Term
  /-- What it remembers. -/
  snapshot? : Option Snapshot
deriving DecidableEq

namespace Remembered

/-- A value that remembers nothing. -/
def fresh (t : Term) : Remembered := ⟨t, none⟩

/-- A snapshot for a deriver is there. -/
def isCachedFor (v : Remembered) (d : Deriver) : Bool :=
  v.snapshot?.any (·.generation == d.generation)

/-- The snapshot for a deriver, taken anew if there is none, with the value and the deriver after
it. -/
def snapshotFor (v : Remembered) (d : Deriver) :
    Except InsideCharacter (Snapshot × Remembered × Deriver) :=
  match v.snapshot?.filter (·.generation == d.generation) with
  | some s => .ok (s, v, d.countSnapshot true)
  | none => do
    let d := d.countSnapshot false
    let encoded ← d.factory.codec.encode v.value
    let (id, d) := d.derive encoded
    let s : Snapshot := ⟨d.generation, id, encoded⟩
    return (s, { v with snapshot? := some s }, d)

/-- The identifier of a value. -/
def id (v : Remembered) (d : Deriver) :
    Except InsideCharacter (Identifier × Remembered × Deriver) :=
  (v.snapshotFor d).map fun (s, v, d) => (s.id, v, d)

/-- The encoded form of a value. -/
def encodedForm (v : Remembered) (d : Deriver) :
    Except InsideCharacter (Encoded × Remembered × Deriver) :=
  (v.snapshotFor d).map fun (s, v, d) => (s.encoded, v, d)

/-- The value with an identifier that was obtained elsewhere. -/
def setId (v : Remembered) (d : Deriver) (id : Identifier) : Except InsideCharacter Remembered := do
  let encoded ← d.factory.codec.encode v.value
  return { v with snapshot? := some ⟨d.generation, id, encoded⟩ }

/-- How a remembered value is shown. -/
def display (v : Remembered) : String :=
  let cached :=
    match v.snapshot? with
    | none => "None"
    | some s => "Some(" ++ s.id.display ++ ")"
  "IdentifiableValue \x7b value: " ++ v.value.display ++ ", cached: " ++ cached ++ " \x7d"

end Remembered

end RdfIndex
