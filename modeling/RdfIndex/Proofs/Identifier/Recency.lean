import RdfIndex.Proofs.Identifier.Cache

/-!
# What a cache remembers

A map that forgets holds the keys that were used last, as many as it has room for and each once
(`Lru.Holds`).  A use of a key brings it to the front, whether it is found or put.  Each shard of a
cache is such a map for the encoded values whose hash selects it, so a run of derivations says
exactly what a cache holds (`Deriver.IsAfter`), and with it which derivations are found there.
-/

namespace RdfIndex

/-! ## Keys by their last use -/

section Latest

variable {κ : Type} [DecidableEq κ]

/-- The keys of some uses, of which the latest is the first, each once. -/
def latest : List κ → List κ
  | [] => []
  | k :: used => k :: (latest used).filter (· != k)

theorem nodup_latest (used : List κ) : (latest used).Nodup := by
  induction used with
  | nil => exact List.nodup_nil
  | cons k used ih =>
    refine List.nodup_cons.2 ⟨fun h => ?_, ih.filter _⟩
    exact absurd rfl (bne_iff_ne.1 (List.mem_filter.1 h).2)

/-- Of keys without a given one, the first are found among one more of the keys. -/
theorem take_filter_take {keys : List κ} (h : keys.Nodup) (k : κ) (n : Nat) :
    ((keys.take (n + 1)).filter (· != k)).take n = (keys.filter (· != k)).take n := by
  induction keys generalizing n with
  | nil => rfl
  | cons a keys ih =>
    obtain ⟨hnot, hrest⟩ := List.nodup_cons.1 h
    rw [List.take_succ_cons]
    by_cases ha : a = k
    · subst ha
      have hall : ∀ b ∈ keys, (b != a) = true := fun b hb => bne_iff_ne.2 fun heq => hnot (heq ▸ hb)
      rw [List.filter_cons_of_neg (by simp), List.filter_cons_of_neg (by simp),
        List.filter_eq_self.2 hall, List.filter_eq_self.2 fun b hb => hall b (List.mem_of_mem_take hb),
        List.take_take, Nat.min_self]
    · have hkeep : ∀ rest : List κ, (a :: rest).filter (· != k) = a :: rest.filter (· != k) :=
        fun rest => List.filter_cons_of_pos (bne_iff_ne.2 ha)
      rw [hkeep, hkeep]
      cases n with
      | zero => rfl
      | succ n => rw [List.take_succ_cons, List.take_succ_cons, ih hrest]

end Latest

namespace Lru

variable {κ ν : Type} [DecidableEq κ] {m : Lru κ ν} {value : κ → ν} {used : List κ} {k : κ}

/-- The keys that a map has room for. -/
def kept (m : Lru κ ν) (used : List κ) : List κ := (latest used).take m.capacity

/-- A map holds the keys that were used last, each with its value. -/
def Holds (m : Lru κ ν) (value : κ → ν) (used : List κ) : Prop :=
  m.entries = (m.kept used).map fun k => (k, value k)

theorem holds_empty (capacity : Nat) (h : 0 < capacity) (value : κ → ν) :
    (empty capacity h).Holds value [] := by
  rw [Holds, kept, latest, List.take_nil]
  rfl

theorem Holds.find?_eq (h : m.Holds value used) (k : κ) :
    m.find? k = if k ∈ m.kept used then some (value k) else none := by
  rw [find?, h]
  generalize m.kept used = keys
  induction keys with
  | nil => rfl
  | cons a keys ih =>
    rw [List.map_cons]
    by_cases ha : a = k
    · rw [List.find?_cons_of_pos (by simpa using ha), if_pos (by simp [ha]), ha]
      rfl
    · rw [List.find?_cons_of_neg (by simpa using ha), ih]
      simp [Ne.symm ha]

theorem Holds.without_eq (h : m.Holds value used) (k : κ) :
    m.without k = ((m.kept used).filter (· != k)).map fun k => (k, value k) := by
  rw [without, h, List.filter_map]
  rfl

/-- A key that is used comes first, before those of the others that there is room for. -/
theorem kept_cons (m : Lru κ ν) (used : List κ) (k : κ) :
    m.kept (k :: used) = k :: ((m.kept used).filter (· != k)).take (m.capacity - 1) := by
  obtain ⟨n, hn⟩ := Nat.exists_eq_add_one.2 m.capacity_pos
  rw [kept, kept, latest, hn, List.take_succ_cons, Nat.add_sub_cancel,
    take_filter_take (nodup_latest used)]

theorem capacity_get? (m : Lru κ ν) (k : κ) : (m.get? k).2.capacity = m.capacity := by
  rw [get?]
  split <;> rfl

/-- A key that is found is used. -/
theorem Holds.get?_found (h : m.Holds value used) (hk : k ∈ m.kept used) :
    (m.get? k).1 = some (value k) ∧ (m.get? k).2.Holds value (k :: used) := by
  have hfind : m.find? k = some (value k) := (h.find?_eq k).trans (if_pos hk)
  refine ⟨(fst_get? m k).trans hfind, ?_⟩
  -- Without the key fewer keys are left than there is room for.
  have hfew : ((m.kept used).filter (· != k)).length ≤ m.capacity - 1 := by
    have hless : ((m.kept used).filter (· != k)).length < (m.kept used).length :=
      List.length_filter_lt_length_iff_exists.2 ⟨k, hk, by simp⟩
    have hroom : (m.kept used).length ≤ m.capacity := List.length_take_le _ _
    omega
  rw [get?]
  split
  · next hnone =>
    rw [hnone] at hfind
    cases hfind
  · next v hsome =>
    obtain rfl : v = value k := Option.some.inj (hsome.symm.trans hfind)
    rw [Holds]
    show (k, value k) :: m.without k = (m.kept (k :: used)).map fun k => (k, value k)
    rw [kept_cons, List.take_of_length_le hfew, h.without_eq, List.map_cons]

/-- A key that is not found changes nothing. -/
theorem Holds.get?_missing (h : m.Holds value used) (hk : k ∉ m.kept used) : m.get? k = (none, m) := by
  have hfind : m.find? k = none := (h.find?_eq k).trans (if_neg hk)
  rw [get?]
  split
  · rfl
  · next v hsome =>
    rw [hsome] at hfind
    cases hfind

/-- A key that is put is used. -/
theorem Holds.put (h : m.Holds value used) (k : κ) : (m.put k (value k)).Holds value (k :: used) := by
  show (k, value k) :: (m.without k).take (m.capacity - 1)
    = (m.kept (k :: used)).map fun k => (k, value k)
  rw [kept_cons, h.without_eq, List.map_cons, List.map_take]

end Lru

/-! ## Shards -/

namespace IdCache

/-- The number of the shard of an encoded value, of so many shards. -/
def shardNumber (count : Nat) (e : Encoded) : Nat := (Pearson.hash16 e.bytes).toNat % count

/-- The uses of a shard. -/
def usesOf (count i : Nat) (used : List Encoded) : List Encoded :=
  used.filter fun e => shardNumber count e == i

/-- The encoded values that a cache remembers in the shard of one: as many as the shard has room
for, of those that were used last. -/
def remembered (count room : Nat) (used : List Encoded) (e : Encoded) : List Encoded :=
  (latest (usesOf count (shardNumber count e) used)).take room

theorem usesOf_self (count : Nat) (used : List Encoded) (e : Encoded) :
    usesOf count (shardNumber count e) (e :: used) = e :: usesOf count (shardNumber count e) used :=
  List.filter_cons_of_pos (beq_self_eq_true _)

theorem usesOf_other {count i : Nat} {e : Encoded} (h : i ≠ shardNumber count e)
    (used : List Encoded) : usesOf count i (e :: used) = usesOf count i used :=
  List.filter_cons_of_neg fun heq => h (beq_iff_eq.1 heq).symm

/-- A cache of so many shards, each with room for so many entries, after some uses of which the
latest is the first. -/
structure IsAfter (c : IdCache) (value : Encoded → Identifier) (count room : Nat)
    (used : List Encoded) : Prop where
  length : c.shards.length = count
  capacity : ∀ m ∈ c.shards, m.capacity = room
  holds : ∀ (i : Nat) (m : Lru Encoded Identifier), c.shards[i]? = some m →
    m.Holds value (usesOf count i used)

variable {c : IdCache} {value : Encoded → Identifier} {count room : Nat} {used : List Encoded}
  {e : Encoded}

theorem isAfter_empty (value : Encoded → Identifier) (shards capacity : Nat) :
    (empty shards capacity).IsAfter value (max shards 1) (max (capacity / max shards 1) 1) [] where
  length := List.length_replicate
  capacity := fun m hm => by
    rw [List.eq_of_mem_replicate hm]
    rfl
  holds := fun i m hm => by
    rw [List.eq_of_mem_replicate (List.mem_of_getElem? hm)]
    exact Lru.holds_empty _ _ value

/-- No shard has more entries than it has room for. -/
theorem IsAfter.size_le (h : c.IsAfter value count room used) : c.size ≤ count * room := by
  have hshards : ∀ shards : List (Lru Encoded Identifier), (∀ m ∈ shards, m.capacity = room) →
      total Lru.size shards ≤ shards.length * room := by
    intro shards hroom
    induction shards with
    | nil => exact Nat.zero_le _
    | cons m shards ih =>
      obtain ⟨hm, hrest⟩ := List.forall_mem_cons.1 hroom
      have hle : m.size ≤ room := hm ▸ m.length_le
      have := ih hrest
      rw [total_cons, List.length_cons, Nat.add_mul]
      omega
  exact h.length ▸ hshards c.shards h.capacity

theorem IsAfter.shardOf_eq (h : c.IsAfter value count room used) (e : Encoded) :
    c.shardOf e = shardNumber count e := by
  rw [shardOf, h.length]
  rfl

theorem IsAfter.exists_shard (h : c.IsAfter value count room used) (e : Encoded) :
    ∃ m, c.shards[shardNumber count e]? = some m := by
  have hlt : shardNumber count e < c.shards.length := by
    rw [← h.shardOf_eq]
    exact Nat.mod_lt _ (List.length_pos_iff.2 c.shards_ne)
  exact ⟨_, List.getElem?_eq_getElem hlt⟩

/-- A use of a shard is a use of the cache. -/
theorem IsAfter.setShard (h : c.IsAfter value count room used) {m : Lru Encoded Identifier}
    (hroom : m.capacity = room)
    (hholds : m.Holds value (e :: usesOf count (shardNumber count e) used)) :
    (c.setShard (shardNumber count e) m).IsAfter value count room (e :: used) where
  length := (List.length_set ..).trans h.length
  capacity := by
    intro m' hm'
    rcases List.mem_or_eq_of_mem_set hm' with hm' | rfl
    · exact h.capacity m' hm'
    · exact hroom
  holds := by
    intro i m' hm'
    have hm' : (c.shards.set (shardNumber count e) m)[i]? = some m' := hm'
    by_cases hi : i = shardNumber count e
    · subst hi
      obtain ⟨_, _, rfl⟩ := Option.map_eq_some_iff.1 (List.getElem?_set_self'.symm.trans hm')
      rw [usesOf_self]
      exact hholds
    · rw [List.getElem?_set_ne (Ne.symm hi)] at hm'
      rw [usesOf_other hi]
      exact h.holds i m' hm'

/-- An encoded value that a cache remembers is found. -/
theorem IsAfter.get?_found (h : c.IsAfter value count room used)
    (he : e ∈ remembered count room used e) :
    ∃ c', c.get? e = (some (value e), c') ∧ c'.IsAfter value count room (e :: used) := by
  obtain ⟨m, hm⟩ := h.exists_shard e
  have hroom := h.capacity m (List.mem_of_getElem? hm)
  have hkept : e ∈ m.kept (usesOf count (shardNumber count e) used) := by
    rw [Lru.kept, hroom]
    exact he
  obtain ⟨hvalue, hholds⟩ := (h.holds _ m hm).get?_found hkept
  refine ⟨c.setShard (shardNumber count e) (m.get? e).2, ?_,
    h.setShard ((m.capacity_get? e).trans hroom) hholds⟩
  rw [get?, h.shardOf_eq, hm]
  show ((m.get? e).1, _) = _
  rw [hvalue]

/-- An encoded value that a cache does not remember is not found, and is remembered once it is
put. -/
theorem IsAfter.get?_missing (h : c.IsAfter value count room used)
    (he : e ∉ remembered count room used e) :
    ∃ c', c.get? e = (none, c') ∧ (c'.put e (value e)).IsAfter value count room (e :: used) := by
  obtain ⟨m, hm⟩ := h.exists_shard e
  have hroom := h.capacity m (List.mem_of_getElem? hm)
  have hkept : e ∉ m.kept (usesOf count (shardNumber count e) used) := by
    rw [Lru.kept, hroom]
    exact he
  have hholds := h.holds _ m hm
  refine ⟨c, ?_, ?_⟩
  · have hsame : c.setShard (shardNumber count e) m = c := by
      obtain ⟨hlt, rfl⟩ := List.getElem?_eq_some_iff.1 hm
      rw [IdCache.setShard]
      congr
      exact List.set_getElem_self hlt
    rw [get?, h.shardOf_eq, hm]
    show ((m.get? e).1, c.setShard _ (m.get? e).2) = _
    rw [hholds.get?_missing hkept, hsame]
  · rw [put, h.shardOf_eq, hm]
    exact h.setShard hroom (hholds.put e)

end IdCache

/-! ## Derivations -/

namespace Deriver

open IdCache (remembered)

/-- The identifiers of encoded values that are derived in turn. -/
def identifiers (d : Deriver) : List Encoded → List Identifier
  | [] => []
  | e :: es => (d.derive e).1 :: (d.derive e).2.identifiers es

theorem identifiers_eq {d : Deriver} (h : d.Coherent) (es : List Encoded) :
    d.identifiers es = es.map d.factory.derive := by
  induction es generalizing d with
  | nil => rfl
  | cons e es ih =>
    obtain ⟨hid, hnext, hfactory⟩ := derive_spec h e
    rw [identifiers, hid, ih hnext, hfactory, List.map_cons]

/-- A deriver with a cache after some derivations, of which the latest is the first. -/
structure IsAfter (d : Deriver) (f : IdFactory) (count room : Nat) (used : List Encoded) : Prop where
  factory : d.factory = f
  cache : ∃ c, d.cache = some c ∧ c.IsAfter f.derive count room used
  calls : d.counts.cacheHits + d.counts.cacheMisses = used.length
  derivations : d.counts.derivations = d.counts.cacheMisses

variable {d : Deriver} {f : IdFactory} {count room : Nat} {used : List Encoded}

theorem isAfter_start (f : IdFactory) (generation shards capacity : Nat) :
    (start f generation (some (shards, capacity))).IsAfter f (max shards 1)
      (max (capacity / max shards 1) 1) [] where
  factory := rfl
  cache := ⟨_, rfl, IdCache.isAfter_empty f.derive shards capacity⟩
  calls := rfl
  derivations := rfl

/-- A derivation is a hit if and only if the cache remembers the encoded value, and a use of it
either way. -/
theorem IsAfter.derive (h : d.IsAfter f count room used) (e : Encoded) :
    (d.derive e).2.IsAfter f count room (e :: used)
      ∧ (d.derive e).2.counts.cacheHits
        = d.counts.cacheHits + if e ∈ remembered count room used e then 1 else 0 := by
  obtain ⟨c, hc, hcache⟩ := h.cache
  have hcalls := h.calls
  have hderivations := h.derivations
  rw [Deriver.derive, hc]
  by_cases he : e ∈ remembered count room used e
  · obtain ⟨c', hget, hcache'⟩ := hcache.get?_found he
    rw [if_pos he]
    simp only [hget]
    refine ⟨⟨h.factory, ⟨c', rfl, hcache'⟩, ?_, hderivations⟩, rfl⟩
    show d.counts.cacheHits + 1 + d.counts.cacheMisses = used.length + 1
    omega
  · obtain ⟨c', hget, hcache'⟩ := hcache.get?_missing he
    rw [if_neg he]
    simp only [hget]
    refine ⟨⟨h.factory, ⟨_, rfl, ?_⟩, ?_, ?_⟩, rfl⟩
    · rw [h.factory]
      exact hcache'
    · show d.counts.cacheHits + (d.counts.cacheMisses + 1) = used.length + 1
      omega
    · exact congrArg (· + 1) hderivations

theorem IsAfter.after (h : d.IsAfter f count room used) (es : List Encoded) :
    (d.after es).IsAfter f count room (es.reverse ++ used) := by
  induction es generalizing d used with
  | nil => exact h
  | cons e es ih =>
    rw [List.reverse_cons, List.append_assoc]
    exact ih (h.derive e).1

/-- A cache is not seen in the identifiers: each is the one that is derived without a cache.  It is
seen in the counts.  Every derivation is a hit or a miss, a miss computes an identifier, and a hit
is a derivation of one of the encoded values that were used last in their shard, of which there are
never more than the shards have room for. -/
theorem identifiers_cached (f : IdFactory) (generation shards capacity : Nat) (es : List Encoded) :
    let cached := start f generation (some (shards, capacity))
    let counts := (cached.after es).counts
    cached.identifiers es = (start f generation none).identifiers es
      ∧ counts.cacheHits + counts.cacheMisses = es.length
      ∧ counts.derivations = counts.cacheMisses
      ∧ (∃ c, (cached.after es).cache = some c
        ∧ c.size ≤ max shards 1 * max (capacity / max shards 1) 1)
      ∧ ∀ e, ((cached.after es).derive e).2.counts.cacheHits = counts.cacheHits
        + if e ∈ remembered (max shards 1) (max (capacity / max shards 1) 1) es.reverse e then 1
          else 0 := by
  intro cached counts
  have hafter := (isAfter_start f generation shards capacity).after es
  rw [List.append_nil] at hafter
  refine ⟨?_, ?_, hafter.derivations, ?_, fun e => (hafter.derive e).2⟩
  · have heach : ∀ cache, (start f generation cache).identifiers es = es.map f.derive :=
      fun cache => identifiers_eq (coherent_start f generation cache) es
    rw [heach none]
    exact heach _
  · rw [hafter.calls, List.length_reverse]
  · obtain ⟨c, hc, hcache⟩ := hafter.cache
    exact ⟨c, hc, hcache.size_le⟩

end Deriver

end RdfIndex
