import RdfIndex.Statement.Cell
import RdfIndex.Store.Cells

/-!
# What is in a store of cells

A store is the set of its cells: stores with the same cells are the same (`CellStore.ext_mem`).
Putting and deleting change nothing but the place that they are about, one cell at a time and over
a list of cells at different places.
-/

namespace RdfIndex

namespace StoredCell

variable {a c d e : StoredCell}

theorem not_isAt_of_before (h : c.Before e) : ¬ e.isAt c.row c.qualifier = true := by
  intro hat
  obtain ⟨hrow, hqual⟩ := isAt_iff.1 hat
  rcases h with h | ⟨_, h⟩
  · exact List.lt_irrefl _ (hrow ▸ h)
  · exact List.lt_irrefl _ (hqual ▸ h)

theorem isAt_comm (h : c.isAt d.row d.qualifier = true) : d.isAt c.row c.qualifier = true := by
  obtain ⟨hrow, hqual⟩ := isAt_iff.1 h
  exact isAt_iff.2 ⟨hrow.symm, hqual.symm⟩

/-- A cell that is inserted takes the place of the one that was there and of no other. -/
theorem mem_insertInto_iff {cells : List StoredCell} (h : cells.Pairwise Before) :
    e ∈ insertInto c cells ↔ e = c ∨ (e ∈ cells ∧ ¬ e.isAt c.row c.qualifier = true) := by
  induction cells with
  | nil => simp [insertInto]
  | cons d ds ih =>
    obtain ⟨hd, hds⟩ := List.pairwise_cons.1 h
    unfold insertInto
    split
    · next hc =>
      rw [List.mem_cons]
      refine or_congr_right ⟨fun he => ⟨he, not_isAt_of_before ?_⟩, And.left⟩
      rcases List.mem_cons.1 he with rfl | he
      · exact hc
      · exact hc.trans (hd e he)
    split
    · next hat =>
      rw [List.mem_cons]
      refine or_congr_right ⟨fun he => ⟨List.mem_cons_of_mem _ he, ?_⟩, fun he => ?_⟩
      · exact not_isAt_of_before (before_of_isAt hat (hd e he))
      · exact (List.mem_cons.1 he.1).resolve_left fun heq => he.2 (heq ▸ isAt_comm hat)
    · next hat =>
      rw [List.mem_cons, ih hds, List.mem_cons]
      constructor
      · rintro (rfl | rfl | ⟨he, hne⟩)
        · exact .inr ⟨.inl rfl, fun h => hat (isAt_comm h)⟩
        · exact .inl rfl
        · exact .inr ⟨.inr he, hne⟩
      · rintro (rfl | ⟨rfl | he, hne⟩)
        · exact .inr (.inl rfl)
        · exact .inl rfl
        · exact .inr (.inr ⟨he, hne⟩)

end StoredCell

/-- The cell as it is stored. -/
def Cell.stored (c : Cell) : StoredCell := ⟨c.row, c.qualifier, c.value⟩

namespace CellStore

variable {s t : CellStore} {row qualifier value : Bytes} {c : StoredCell}

theorem nodup_cells (s : CellStore) : s.cells.Nodup := by
  refine s.sorted.imp ?_
  rintro a _ h rfl
  exact StoredCell.Before.irrefl a h

/-- Stores with the same cells are the same. -/
theorem ext_mem (h : ∀ c, c ∈ s.cells ↔ c ∈ t.cells) : s = t := by
  have hperm : s.cells.Perm t.cells :=
    (List.perm_ext_iff_of_nodup s.nodup_cells t.nodup_cells).2 h
  have heq : s.cells = t.cells := by
    refine List.Perm.eq_of_pairwise (fun a b _ _ hab hba => ?_) s.sorted t.sorted hperm
    exact absurd (hab.trans hba) (StoredCell.Before.irrefl a)
  cases s
  cases t
  cases heq
  rfl

theorem mem_put : c ∈ (s.put row qualifier value).cells
    ↔ c = ⟨row, qualifier, value⟩ ∨ (c ∈ s.cells ∧ ¬ c.isAt row qualifier = true) :=
  StoredCell.mem_insertInto_iff s.sorted

theorem mem_delete : c ∈ (s.delete row qualifier).1.cells
    ↔ c ∈ s.cells ∧ ¬ c.isAt row qualifier = true := by
  rw [delete, List.mem_filter, Bool.not_eq_true', Bool.not_eq_true]

theorem isSome_get? : (s.get? row qualifier).isSome = true
    ↔ ∃ c ∈ s.cells, c.isAt row qualifier = true := by
  rw [get?, Option.isSome_map, List.find?_isSome]

theorem mem_scan {start stop : Bytes} : c ∈ s.scan start stop
    ↔ c ∈ s.cells ∧ ¬ c.row < start ∧ c.row < stop := by
  rw [scan, List.mem_filter, Bool.and_eq_true, Bool.not_eq_true', decide_eq_false_iff_not,
    decide_eq_true_eq]

/-! ## Many cells -/

/-- The store with some cells. -/
def putAll (s : CellStore) (cs : List Cell) : CellStore :=
  cs.foldl (fun t c => t.put c.row c.qualifier c.value) s

/-- The store without some cells. -/
def deleteAll (s : CellStore) (cs : List Cell) : CellStore :=
  cs.foldl (fun t c => (t.delete c.row c.qualifier).1) s

/-- Cells at different places are all there after they are put, besides what is elsewhere. -/
theorem mem_putAll {cs : List Cell}
    (hcs : cs.Pairwise fun d e => ¬ d.stored.isAt e.row e.qualifier = true) :
    ∀ {s : CellStore}, c ∈ (s.putAll cs).cells ↔ (∃ d ∈ cs, d.stored = c)
      ∨ (c ∈ s.cells ∧ ∀ d ∈ cs, ¬ c.isAt d.row d.qualifier = true) := by
  induction cs with
  | nil => intro s; simp [putAll]
  | cons d ds ih =>
    intro s
    obtain ⟨hd, hds⟩ := List.pairwise_cons.1 hcs
    show c ∈ ((s.put d.row d.qualifier d.value).putAll ds).cells ↔ _
    rw [ih hds, mem_put]
    constructor
    · rintro (⟨e, he, heq⟩ | ⟨rfl | ⟨hc, hne⟩, hall⟩)
      · exact .inl ⟨e, List.mem_cons_of_mem d he, heq⟩
      · exact .inl ⟨d, List.mem_cons_self, rfl⟩
      · exact .inr ⟨hc, List.forall_mem_cons.2 ⟨hne, hall⟩⟩
    · rintro (⟨e, he, heq⟩ | ⟨hc, hall⟩)
      · rcases List.mem_cons.1 he with rfl | he
        · exact .inr ⟨.inl heq.symm, fun f hf => heq ▸ hd f hf⟩
        · exact .inl ⟨e, he, heq⟩
      · obtain ⟨hne, hall⟩ := List.forall_mem_cons.1 hall
        exact .inr ⟨.inr ⟨hc, hne⟩, hall⟩

theorem mem_deleteAll {cs : List Cell} : ∀ {s : CellStore}, c ∈ (s.deleteAll cs).cells
    ↔ c ∈ s.cells ∧ ∀ d ∈ cs, ¬ c.isAt d.row d.qualifier = true := by
  induction cs with
  | nil => intro s; simp [deleteAll]
  | cons d ds ih =>
    intro s
    show c ∈ ((s.delete d.row d.qualifier).1.deleteAll ds).cells ↔ _
    rw [ih, mem_delete, List.forall_mem_cons, and_assoc]

end CellStore

end RdfIndex
