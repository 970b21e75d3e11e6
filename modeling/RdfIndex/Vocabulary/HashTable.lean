import RdfIndex.Digest.Pearson
import RdfIndex.Error

/-!
# Tables of hashed entries

A table keeps entries in the order in which they came, each with the hash of its text.  No two
entries have the same hash, so an entry is found by its hash as well as by itself.
-/

namespace RdfIndex

/-- The hash of a text, which stands for it in stored bytes. -/
def textHash (text : String) : UInt16 := Pearson.hash16 (Utf8.bytes text)

/-- Entries with distinct hashes of their texts. -/
structure HashTable (α : Type) (text : α → String) where
  /-- The entries with their hashes, first come first. -/
  entries : List (UInt16 × α)
  /-- Each entry is kept with its own hash. -/
  hash_eq : ∀ e ∈ entries, e.1 = textHash (text e.2)
  /-- No hash is there twice. -/
  distinct : (entries.map Prod.fst).Nodup

namespace HashTable

variable {α : Type} {text : α → String}

/-- The table without entries. -/
def empty : HashTable α text := ⟨[], by simp, by simp⟩

/-- The entry of a hash. -/
def ofHash? (t : HashTable α text) (hash : UInt16) : Option α :=
  (t.entries.find? (·.1 == hash)).map Prod.snd

/-- The number of entries. -/
def size (t : HashTable α text) : Nat := t.entries.length

/-- The entries, first come first. -/
def toList (t : HashTable α text) : List α := t.entries.map Prod.snd

theorem ofHash?_eq_none {t : HashTable α text} {hash : UInt16} :
    t.ofHash? hash = none ↔ hash ∉ t.entries.map Prod.fst := by
  simp only [ofHash?, Option.map_eq_none_iff, List.find?_eq_none, beq_iff_eq, List.mem_map,
    Prod.exists, exists_and_right, exists_eq_right, not_exists]
  exact ⟨fun h a ha => h _ ha rfl, fun h e he heq => h e.2 (heq ▸ he)⟩

/-- The table with one more entry, whose hash is new. -/
def push (t : HashTable α text) (a : α) (fresh : t.ofHash? (textHash (text a)) = none) :
    HashTable α text where
  entries := t.entries ++ [(textHash (text a), a)]
  hash_eq := by
    intro e he
    rcases List.mem_append.1 he with he | he
    · exact t.hash_eq e he
    · rw [List.mem_singleton.1 he]
  distinct := by
    rw [List.map_append, List.nodup_append]
    refine ⟨t.distinct, by simp, ?_⟩
    intro h hh h' hh' heq
    simp only [List.map_cons, List.map_nil, List.mem_singleton] at hh'
    exact ofHash?_eq_none.1 fresh (hh' ▸ heq ▸ hh)

variable [DecidableEq α]

/-- The table with an entry.  Another entry with the same hash refuses it. -/
def insert (t : HashTable α text) (a : α) : Except Collision (HashTable α text) :=
  match h : t.ofHash? (textHash (text a)) with
  | none => .ok (t.push a h)
  | some kept =>
    if kept = a then .ok t else .error ⟨textHash (text a), text kept, text a⟩

/-- The table with some entries, in turn.  The first collision refuses them. -/
def insertAll (t : HashTable α text) : List α → Except Collision (HashTable α text)
  | [] => .ok t
  | a :: rest =>
    match t.insert a with
    | .ok t => t.insertAll rest
    | .error e => .error e

/-- The table with those of some entries that collide with none before them. -/
def insertFree (t : HashTable α text) : List α → HashTable α text
  | [] => t
  | a :: rest =>
    match t.insert a with
    | .ok t => t.insertFree rest
    | .error _ => t.insertFree rest

/-- The hash of an entry. -/
def hashOf? (t : HashTable α text) (a : α) : Option UInt16 :=
  (t.entries.find? (·.2 == a)).map Prod.fst

end HashTable

end RdfIndex
