/-!
# Maps that forget

A map with a capacity keeps its entries in the order in which they were last used, the latest first.
A new entry that finds the map full takes the place of the last one.
-/

namespace RdfIndex

/-- A map of bounded size, the entries that were used last first. -/
structure Lru (κ ν : Type) where
  /-- The entries, the latest used first. -/
  entries : List (κ × ν)
  /-- The greatest number of entries. -/
  capacity : Nat
  /-- There is room for one entry. -/
  capacity_pos : 0 < capacity
  /-- No more entries than there is room for. -/
  length_le : entries.length ≤ capacity

namespace Lru

variable {κ ν : Type}

/-- The map without entries. -/
def empty (capacity : Nat) (h : 0 < capacity) : Lru κ ν := ⟨[], capacity, h, Nat.zero_le _⟩

/-- The number of entries. -/
def size (m : Lru κ ν) : Nat := m.entries.length

variable [DecidableEq κ]

/-- The entries without those of a key. -/
def without (m : Lru κ ν) (k : κ) : List (κ × ν) := m.entries.filter (·.1 != k)

theorem length_without_lt {m : Lru κ ν} {k : κ} {v : ν} (h : (k, v) ∈ m.entries) :
    (m.without k).length < m.entries.length :=
  List.length_filter_lt_length_iff_exists.2 ⟨(k, v), h, by simp⟩

/-- The value of a key. -/
def find? (m : Lru κ ν) (k : κ) : Option ν := (m.entries.find? (·.1 == k)).map Prod.snd

theorem mem_of_find? {m : Lru κ ν} {k : κ} {v : ν} (h : m.find? k = some v) :
    (k, v) ∈ m.entries := by
  obtain ⟨e, he, rfl⟩ := Option.map_eq_some_iff.1 h
  have hk : e.1 = k := by simpa using List.find?_some he
  exact hk ▸ List.mem_of_find?_eq_some he

/-- The value of a key, and the map after its use. -/
def get? (m : Lru κ ν) (k : κ) : Option ν × Lru κ ν :=
  match h : m.find? k with
  | none => (none, m)
  | some v =>
    (some v,
      ⟨(k, v) :: m.without k, m.capacity, m.capacity_pos,
        Nat.le_trans (length_without_lt (mem_of_find? h)) m.length_le⟩)

/-- The map with a value for a key. -/
def put (m : Lru κ ν) (k : κ) (v : ν) : Lru κ ν where
  entries := (k, v) :: (m.without k).take (m.capacity - 1)
  capacity := m.capacity
  capacity_pos := m.capacity_pos
  length_le := by
    have := m.capacity_pos
    simp only [List.length_cons, List.length_take]
    omega

end Lru

end RdfIndex
