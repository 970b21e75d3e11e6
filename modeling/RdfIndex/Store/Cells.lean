import RdfIndex.Bytes.Basic

/-!
# Sorted cells

A store of cells keeps a value for each pair of a row and a qualifier.  Its cells are in the order
of their rows, and of their qualifiers within a row.
-/

namespace RdfIndex

/-- A cell of a store. -/
structure StoredCell where
  row : Bytes
  qualifier : Bytes
  value : Bytes
deriving DecidableEq, Repr

namespace StoredCell

/-- A cell comes before another one, by its row and then by its qualifier. -/
def Before (a b : StoredCell) : Prop := a.row < b.row ∨ a.row = b.row ∧ a.qualifier < b.qualifier

instance (a b : StoredCell) : Decidable (a.Before b) := inferInstanceAs (Decidable (_ ∨ _))

def isAt (row qualifier : Bytes) (c : StoredCell) : Bool := c.row == row && c.qualifier == qualifier

theorem isAt_iff {row qualifier : Bytes} {c : StoredCell} :
    c.isAt row qualifier = true ↔ c.row = row ∧ c.qualifier = qualifier := by
  simp [isAt]

theorem Before.trans {a b c : StoredCell} (h : a.Before b) (h' : b.Before c) : a.Before c := by
  rcases h with h | ⟨h, hq⟩ <;> rcases h' with h' | ⟨h', hq'⟩
  · exact .inl (List.lt_trans h h')
  · exact .inl (h' ▸ h)
  · exact .inl (h ▸ h')
  · exact .inr ⟨h.trans h', List.lt_trans hq hq'⟩

theorem Before.irrefl (a : StoredCell) : ¬ a.Before a := by
  rintro (h | ⟨_, h⟩) <;> exact List.lt_irrefl _ h

/-- Of two cells at different places one comes before the other. -/
theorem before_of_not_before {a b : StoredCell} (h : ¬ a.Before b)
    (hne : ¬ a.isAt b.row b.qualifier = true) : b.Before a := by
  simp only [isAt_iff, not_and] at hne
  simp only [Before, not_or, not_and] at h ⊢
  by_cases hrow : b.row < a.row
  · exact .inl hrow
  · have heq : a.row = b.row := List.le_antisymm hrow h.1
    refine .inr ⟨heq.symm, ?_⟩
    by_cases hq : b.qualifier < a.qualifier
    · exact hq
    · exact absurd (List.le_antisymm hq (h.2 heq)) (hne heq)

/-- Cells with one more cell, in place of the one that was where it is. -/
def insertInto (c : StoredCell) : List StoredCell → List StoredCell
  | [] => [c]
  | d :: ds =>
    if c.Before d then c :: d :: ds
    else if c.isAt d.row d.qualifier then c :: ds
    else d :: insertInto c ds

theorem mem_insertInto {c e : StoredCell} {cells : List StoredCell} (h : e ∈ insertInto c cells) :
    e = c ∨ e ∈ cells := by
  induction cells with
  | nil => exact .inl (by simpa [insertInto] using h)
  | cons d ds ih =>
    unfold insertInto at h
    split at h
    · simpa using h
    split at h
    · rcases List.mem_cons.1 h with h | h
      · exact .inl h
      · exact .inr (List.mem_cons_of_mem _ h)
    · rcases List.mem_cons.1 h with h | h
      · exact .inr (h ▸ List.mem_cons_self)
      · rcases ih h with h | h
        · exact .inl h
        · exact .inr (List.mem_cons_of_mem _ h)

/-- A cell that comes before all others comes before what replaces one of them. -/
theorem before_of_isAt {c d e : StoredCell} (h : c.isAt d.row d.qualifier = true)
    (hbefore : d.Before e) : c.Before e := by
  obtain ⟨hr, hq⟩ := isAt_iff.1 h
  simpa [Before, hr, hq] using hbefore

theorem pairwise_insertInto {c : StoredCell} {cells : List StoredCell}
    (h : cells.Pairwise Before) : (insertInto c cells).Pairwise Before := by
  induction cells with
  | nil => simp [insertInto]
  | cons d ds ih =>
    obtain ⟨hd, hds⟩ := List.pairwise_cons.1 h
    unfold insertInto
    split
    · next hc =>
      refine List.pairwise_cons.2 ⟨fun e he => ?_, h⟩
      rcases List.mem_cons.1 he with rfl | he
      · exact hc
      · exact hc.trans (hd e he)
    split
    · next hat =>
      exact List.pairwise_cons.2 ⟨fun e he => before_of_isAt hat (hd e he), hds⟩
    · next hc hat =>
      refine List.pairwise_cons.2 ⟨fun e he => ?_, ih hds⟩
      rcases mem_insertInto he with rfl | he
      · exact before_of_not_before hc hat
      · exact hd e he

end StoredCell

/-- A store of cells. -/
structure CellStore where
  cells : List StoredCell
  /-- They are in order, and no two are at the same place. -/
  sorted : cells.Pairwise StoredCell.Before

namespace CellStore

/-- The store without cells. -/
def empty : CellStore := ⟨[], .nil⟩

/-- The number of cells. -/
def size (s : CellStore) : Nat := s.cells.length

/-- The cells from a row on and before another row. -/
def scan (s : CellStore) (start stop : Bytes) : List StoredCell :=
  s.cells.filter fun c => !decide (c.row < start) && decide (c.row < stop)

/-- The value at a row and a qualifier. -/
def get? (s : CellStore) (row qualifier : Bytes) : Option Bytes :=
  (s.cells.find? (StoredCell.isAt row qualifier)).map StoredCell.value

/-- The store with a value at a row and a qualifier. -/
def put (s : CellStore) (row qualifier value : Bytes) : CellStore :=
  ⟨StoredCell.insertInto ⟨row, qualifier, value⟩ s.cells, StoredCell.pairwise_insertInto s.sorted⟩

/-- The store without a cell at a row and a qualifier, and whether there was one. -/
def delete (s : CellStore) (row qualifier : Bytes) : CellStore × Bool :=
  (⟨s.cells.filter fun c => !c.isAt row qualifier, s.sorted.filter _⟩,
    s.cells.any (StoredCell.isAt row qualifier))

end CellStore

end RdfIndex
