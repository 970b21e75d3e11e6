import RdfIndex.Identifier.Basic
import RdfIndex.Identifier.Lru
import RdfIndex.Number.Total

/-!
# Caches of identifiers

A cache maps encoded values to identifiers.  It is divided into shards of equal capacity.  The hash
of an encoded value tells its shard, and each shard forgets on its own.
-/

namespace RdfIndex

/-- A cache of identifiers. -/
structure IdCache where
  shards : List (Lru Encoded Identifier)
  /-- There is a shard. -/
  shards_ne : shards ≠ []

namespace IdCache

/-- The cache with at least one shard, and a capacity that is divided among the shards.  Every shard
has room for one entry. -/
def empty (shards capacity : Nat) : IdCache where
  shards :=
    List.replicate (max shards 1) (.empty (max (capacity / max shards 1) 1) (Nat.le_max_right _ _))
  shards_ne := by simp [List.replicate_eq_nil_iff]

/-- The number of entries in all shards. -/
def size (c : IdCache) : Nat := total Lru.size c.shards

/-- The number of the shard of an encoded value. -/
def shardOf (c : IdCache) (e : Encoded) : Nat :=
  (Pearson.hash16 e.bytes).toNat % c.shards.length

/-- The cache with one shard changed. -/
def setShard (c : IdCache) (i : Nat) (m : Lru Encoded Identifier) : IdCache where
  shards := c.shards.set i m
  shards_ne := by simpa using c.shards_ne

/-- The identifier of an encoded value, and the cache after its use. -/
def get? (c : IdCache) (e : Encoded) : Option Identifier × IdCache :=
  match c.shards[c.shardOf e]? with
  | none => (none, c)
  | some m => ((m.get? e).1, c.setShard (c.shardOf e) (m.get? e).2)

/-- The cache with the identifier of an encoded value. -/
def put (c : IdCache) (e : Encoded) (id : Identifier) : IdCache :=
  match c.shards[c.shardOf e]? with
  | none => c
  | some m => c.setShard (c.shardOf e) (m.put e id)

end IdCache

end RdfIndex
