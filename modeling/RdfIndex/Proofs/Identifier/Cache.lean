import RdfIndex.Identifier.Deriver

/-!
# Remembered identifiers are right

Whatever a cache has forgotten or kept, the identifiers in it are those that would be computed
(`Deriver.Coherent`), so that a deriver gives the identifiers of its factory
(`Deriver.derive_after`).  A map that forgets keeps entries that it was given and no others.
-/

namespace RdfIndex

namespace Lru

variable {κ ν : Type} [DecidableEq κ] {m : Lru κ ν} {k : κ}

theorem fst_get? (m : Lru κ ν) (k : κ) : (m.get? k).1 = m.find? k := by
  rw [get?]
  split
  · next h => exact h.symm
  · next h => exact h.symm

theorem mem_of_mem_without {p : κ × ν} (h : p ∈ m.without k) : p ∈ m.entries :=
  (List.mem_filter.1 h).1

/-- A use changes the order of the entries only. -/
theorem mem_of_mem_get? {p : κ × ν} (h : p ∈ (m.get? k).2.entries) : p ∈ m.entries := by
  rw [get?] at h
  split at h
  · exact h
  · next v hfound =>
    rcases List.mem_cons.1 h with rfl | h
    · exact mem_of_find? hfound
    · exact mem_of_mem_without h

/-- The entries are the new one and old ones. -/
theorem mem_of_mem_put {v : ν} {p : κ × ν} (h : p ∈ (m.put k v).entries) :
    p = (k, v) ∨ p ∈ m.entries :=
  (List.mem_cons.1 h).imp_right fun h => mem_of_mem_without (List.mem_of_mem_take h)

end Lru

namespace IdCache

/-- Every entry of a cache has a property. -/
def Each (P : Encoded × Identifier → Prop) (c : IdCache) : Prop :=
  ∀ m ∈ c.shards, ∀ p ∈ m.entries, P p

variable {P : Encoded × Identifier → Prop} {c : IdCache}

theorem each_empty (shards capacity : Nat) : Each P (empty shards capacity) := by
  intro m hm p hp
  rw [List.eq_of_mem_replicate hm] at hp
  cases hp

theorem Each.setShard (h : Each P c) (i : Nat) {m : Lru Encoded Identifier}
    (hm : ∀ p ∈ m.entries, P p) : Each P (c.setShard i m) := by
  intro m' hm' p hp
  rcases List.mem_or_eq_of_mem_set hm' with hmem | rfl
  · exact h m' hmem p hp
  · exact hm p hp

/-- What is found is an entry, and what is left are the entries. -/
theorem Each.get? (h : Each P c) (e : Encoded) :
    (∀ id, (c.get? e).1 = some id → P (e, id)) ∧ Each P (c.get? e).2 := by
  rw [IdCache.get?]
  split
  · exact ⟨nofun, h⟩
  · next m hm =>
    have hshard := h m (List.mem_of_getElem? hm)
    refine ⟨fun id hid => hshard _ ?_, h.setShard _ fun p hp => hshard p (Lru.mem_of_mem_get? hp)⟩
    rw [Lru.fst_get?] at hid
    exact Lru.mem_of_find? hid

theorem Each.put (h : Each P c) {e : Encoded} {id : Identifier} (hnew : P (e, id)) :
    Each P (c.put e id) := by
  rw [IdCache.put]
  split
  · exact h
  · next m hm =>
    refine h.setShard _ fun p hp => ?_
    rcases Lru.mem_of_mem_put hp with rfl | hp
    · exact hnew
    · exact h m (List.mem_of_getElem? hm) p hp

end IdCache

namespace Deriver

/-- The identifiers in the cache are those that would be computed. -/
def Coherent (d : Deriver) : Prop :=
  ∀ c ∈ d.cache, c.Each fun p => p.2 = d.factory.derive p.1

variable {d : Deriver}

/-- A deriver that has done nothing, without a cache or with one of so many shards and such a
capacity. -/
def start (f : IdFactory) (generation : Nat) (cache : Option (Nat × Nat)) : Deriver :=
  fresh f generation (cache.map fun size => .empty size.1 size.2)

theorem coherent_start (f : IdFactory) (generation : Nat) (cache : Option (Nat × Nat)) :
    (start f generation cache).Coherent := by
  intro c hc
  obtain ⟨size, _, rfl⟩ := Option.map_eq_some_iff.1 hc
  exact IdCache.each_empty size.1 size.2

/-- A derivation gives the identifier of the factory and keeps the cache right. -/
theorem derive_spec (h : d.Coherent) (e : Encoded) :
    (d.derive e).1 = d.factory.derive e ∧ (d.derive e).2.Coherent
      ∧ (d.derive e).2.factory = d.factory := by
  rw [derive]
  split
  · next hnone =>
    refine ⟨rfl, ?_, rfl⟩
    intro c hc
    exact h c hc
  · next cache hcache =>
    obtain ⟨hfound, hrest⟩ := (h cache hcache).get? e
    split
    · next id cache' hget =>
      rw [hget] at hfound hrest
      refine ⟨hfound id rfl, ?_, rfl⟩
      rintro c ⟨⟩
      exact hrest
    · next cache' hget =>
      rw [hget] at hrest
      refine ⟨rfl, ?_, rfl⟩
      rintro c ⟨⟩
      exact hrest.put rfl

/-- A deriver after derivations of the given values. -/
def after (d : Deriver) (es : List Encoded) : Deriver := es.foldl (fun d e => (d.derive e).2) d

theorem after_spec (h : d.Coherent) (es : List Encoded) :
    (d.after es).Coherent ∧ (d.after es).factory = d.factory := by
  induction es generalizing d with
  | nil => exact ⟨h, rfl⟩
  | cons e es ih =>
    obtain ⟨_, hstep, hfactory⟩ := derive_spec h e
    obtain ⟨hrest, hsame⟩ := ih hstep
    exact ⟨hrest, hsame.trans hfactory⟩

/-- What was derived before makes no difference to an identifier. -/
theorem derive_after (h : d.Coherent) (es : List Encoded) (e : Encoded) :
    ((d.after es).derive e).1 = d.factory.derive e := by
  obtain ⟨hafter, hfactory⟩ := after_spec h es
  rw [(derive_spec hafter e).1, hfactory]

end Deriver

end RdfIndex
