import Mathlib.Data.Set.Card
import RdfIndex.Proofs.Store.Cells
import RdfIndex.Store.Rows

/-!
# Rows of cells are a sorted map

A store of rows (`RowStore`) has the cells of a sorted list of them (`RowStore.inOneList`), and
changes them as that list is changed.  What one change does is said place by place, by the value
that is found there (`RowStore.get?_step`).  From this a whole run follows: at each place the store
has what the last change there has left (`RowStore.get?_after`).

Two facts join the rows and the cells.  Rows are in order and so are the cells of each row, so that
all cells are in the order of their places.  No row is without cells, so that a store without rows
is the one without cells.
-/

namespace RdfIndex

/-! ## Byte strings as keys -/

/-- Keys are in the order of byte strings. -/
theorem compare_eq_lt_iff {a : Bytes} : ∀ {b : Bytes}, compare a b = .lt ↔ a < b := by
  induction a with
  | nil =>
    intro b
    cases b with
    | nil => simp
    | cons y b => simp
  | cons x a ih =>
    intro b
    cases b with
    | nil => simp
    | cons y b =>
      have hfirst : compare x y = .lt ↔ x < y := compareOfLessAndEq_eq_lt
      rw [List.compare_cons_cons, Ordering.then_eq_lt, ih, hfirst, Std.compare_eq_iff_eq,
        List.cons_lt_cons_iff]

variable {row : Bytes} {c : StoredCell}

/-- The row and the qualifier of a cell. -/
def StoredCell.place (c : StoredCell) : Bytes × Bytes := (c.row, c.qualifier)

namespace RowCells

theorem mem_stored {cells : RowCells} :
    c ∈ cells.stored row ↔ c.row = row ∧ cells[c.qualifier]? = some c.value := by
  rw [stored, List.mem_map]
  constructor
  · rintro ⟨⟨qualifier, value⟩, hmem, rfl⟩
    exact ⟨rfl, Std.TreeMap.mem_toList_iff_getElem?_eq_some.1 hmem⟩
  · rintro ⟨rfl, hget⟩
    exact ⟨_, Std.TreeMap.mem_toList_iff_getElem?_eq_some.2 hget, rfl⟩

theorem length_stored (row : Bytes) (cells : RowCells) :
    (cells.stored row).length = cells.size := by
  rw [stored, List.length_map, Std.TreeMap.length_toList]

theorem stored_eq_nil_iff {cells : RowCells} : cells.stored row = [] ↔ cells.isEmpty = true := by
  rw [stored, List.map_eq_nil_iff, ← List.isEmpty_iff, Std.TreeMap.isEmpty_toList]

theorem pairwise_stored (row : Bytes) (cells : RowCells) :
    (cells.stored row).Pairwise StoredCell.Before := by
  rw [stored, List.pairwise_map]
  exact cells.ordered_keys_toList.imp fun h => .inr ⟨rfl, compare_eq_lt_iff.1 h⟩

theorem storedRows_cons (row : Bytes × RowCells) (rows : List (Bytes × RowCells)) :
    storedRows (row :: rows) = row.2.stored row.1 ++ storedRows rows := rfl

theorem length_storedRows (rows : List (Bytes × RowCells)) :
    (storedRows rows).length = total (fun (_, cells) => cells.size) rows := by
  induction rows with
  | nil => rfl
  | cons row rows ih => rw [storedRows_cons, List.length_append, length_stored, ih, total_cons]

/-- The cells of some of the rows are the cells that are in them. -/
theorem storedRows_filter (p : Bytes → Bool) (rows : List (Bytes × RowCells)) :
    storedRows (rows.filter fun row => p row.1) = (storedRows rows).filter fun c => p c.row := by
  induction rows with
  | nil => rfl
  | cons row rows ih =>
    rw [storedRows_cons, List.filter_append, ← ih, List.filter_cons]
    split
    · next h =>
      have hall : (row.2.stored row.1).filter (fun c => p c.row) = row.2.stored row.1 :=
        List.filter_eq_self.2 fun c hc => (mem_stored.1 hc).1.symm ▸ h
      rw [storedRows_cons, hall]
    · next h =>
      have hnone : (row.2.stored row.1).filter (fun c => p c.row) = [] :=
        List.filter_eq_nil_iff.2 fun c hc => (mem_stored.1 hc).1.symm ▸ h
      rw [hnone, List.nil_append]

end RowCells

namespace RowStore

variable {s : RowStore}

/-! ## Cells in a row -/

/-- The value at a row and a qualifier. -/
def get? (s : RowStore) (row qualifier : Bytes) : Option Bytes :=
  s.rows[row]?.bind fun cells => cells[qualifier]?

/-- The cells of all rows, one row after the other. -/
def cells (s : RowStore) : List StoredCell := RowCells.storedRows s.rows.toList

theorem mem_cells : c ∈ s.cells ↔ s.get? c.row c.qualifier = some c.value := by
  rw [cells, RowCells.storedRows, List.mem_flatMap, get?, Option.bind_eq_some_iff]
  constructor
  · rintro ⟨⟨row, cells⟩, hrow, hc⟩
    obtain ⟨rfl, hget⟩ := RowCells.mem_stored.1 hc
    exact ⟨cells, Std.TreeMap.mem_toList_iff_getElem?_eq_some.1 hrow, hget⟩
  · rintro ⟨cells, hrow, hget⟩
    exact ⟨(c.row, cells), Std.TreeMap.mem_toList_iff_getElem?_eq_some.2 hrow,
      RowCells.mem_stored.2 ⟨rfl, hget⟩⟩

theorem pairwise_cells (s : RowStore) : s.cells.Pairwise StoredCell.Before := by
  rw [cells, RowCells.storedRows, List.pairwise_flatMap]
  refine ⟨fun row _ => RowCells.pairwise_stored row.1 row.2, ?_⟩
  -- Cells of different rows are in the order of their rows, whatever their qualifiers are.
  refine s.rows.ordered_keys_toList.imp fun {a b} h c hc d hd => .inl ?_
  rw [(RowCells.mem_stored.1 hc).1, (RowCells.mem_stored.1 hd).1]
  exact compare_eq_lt_iff.1 h

/-- The store of the same cells in one list. -/
def inOneList (s : RowStore) : CellStore := ⟨s.cells, s.pairwise_cells⟩

/-! ## Changes -/

theorem getElem?_getD (found : Option RowCells) (qualifier : Bytes) :
    (found.getD ∅)[qualifier]? = found.bind fun cells => cells[qualifier]? := by
  cases found with
  | none => exact Std.TreeMap.getElem?_emptyc
  | some cells => rfl

theorem get?_put (s : RowStore) (row qualifier value row' qualifier' : Bytes) :
    (s.put row qualifier value).get? row' qualifier'
      = if row = row' ∧ qualifier = qualifier' then some value else s.get? row' qualifier' := by
  simp only [get?, put, Std.TreeMap.getElem?_alter, Std.compare_eq_iff_eq]
  by_cases hrow : row = row'
  · subst hrow
    rw [if_pos rfl, Option.bind_some, Std.TreeMap.getElem?_insert, getElem?_getD]
    simp only [Std.compare_eq_iff_eq, true_and]
  · rw [if_neg hrow, if_neg fun h => hrow h.1]

theorem getElem?_setRow (s : RowStore) (row : Bytes) (cells : RowCells) (row' : Bytes) :
    (s.setRow row cells).rows[row']?
      = if row = row' then (if cells.isEmpty then none else some cells) else s.rows[row']? := by
  rw [setRow]
  split
  · simp only [Std.TreeMap.getElem?_erase, Std.compare_eq_iff_eq]
  · simp only [Std.TreeMap.getElem?_insert, Std.compare_eq_iff_eq]

/-- A row that goes has no values. -/
theorem get?_setRow (s : RowStore) (row : Bytes) (cells : RowCells) (row' qualifier' : Bytes) :
    (s.setRow row cells).get? row' qualifier'
      = if row = row' then cells[qualifier']? else s.get? row' qualifier' := by
  rw [get?, getElem?_setRow]
  by_cases hrow : row = row'
  · rw [if_pos hrow, if_pos hrow]
    split
    · next hcells => exact (Std.TreeMap.getElem?_of_isEmpty hcells).symm
    · rfl
  · rw [if_neg hrow, if_neg hrow, get?]

theorem get?_delete (s : RowStore) (row qualifier row' qualifier' : Bytes) :
    (s.delete row qualifier).1.get? row' qualifier'
      = if row = row' ∧ qualifier = qualifier' then none else s.get? row' qualifier' := by
  rw [delete]
  cases hfound : s.rows[row]? with
  | none =>
    show s.get? row' qualifier' = _
    split
    · next hat => rw [get?, ← hat.1, hfound, Option.bind_none]
    · rfl
  | some cells =>
    show (s.setRow row (cells.erase qualifier)).get? row' qualifier' = _
    rw [get?_setRow]
    by_cases hrow : row = row'
    · subst hrow
      rw [if_pos rfl, Std.TreeMap.getElem?_erase, get?, hfound]
      simp only [Std.compare_eq_iff_eq, true_and, Option.bind_some]
    · rw [if_neg hrow, if_neg fun h => hrow h.1]

theorem delete_snd (s : RowStore) (row qualifier : Bytes) :
    (s.delete row qualifier).2 = (s.get? row qualifier).isSome := by
  rw [delete, get?]
  cases s.rows[row]? with
  | none => rfl
  | some cells => exact Std.TreeMap.contains_eq_isSome_getElem?

/-! ## The cells in one list -/

/-- A store of rows does to its cells what a store of one list does. -/
theorem inOneList_put (s : RowStore) (row qualifier value : Bytes) :
    (s.put row qualifier value).inOneList = s.inOneList.put row qualifier value := by
  refine CellStore.ext_mem fun c => ?_
  rw [CellStore.mem_put, StoredCell.isAt_iff]
  show c ∈ (s.put row qualifier value).cells ↔ c = _ ∨ (c ∈ s.cells ∧ _)
  rw [mem_cells, mem_cells, get?_put]
  by_cases hat : row = c.row ∧ qualifier = c.qualifier
  · obtain ⟨rfl, rfl⟩ := hat
    rw [if_pos ⟨rfl, rfl⟩]
    constructor
    · intro h
      exact .inl (by rw [Option.some.inj h])
    · rintro (h | ⟨_, hne⟩)
      · rw [h]
      · exact absurd ⟨rfl, rfl⟩ hne
  · rw [if_neg hat]
    constructor
    · exact fun h => .inr ⟨h, fun heq => hat ⟨heq.1.symm, heq.2.symm⟩⟩
    · rintro (rfl | ⟨h, _⟩)
      · exact absurd ⟨rfl, rfl⟩ hat
      · exact h

theorem inOneList_delete (s : RowStore) (row qualifier : Bytes) :
    (s.delete row qualifier).1.inOneList = (s.inOneList.delete row qualifier).1 := by
  refine CellStore.ext_mem fun c => ?_
  rw [CellStore.mem_delete, StoredCell.isAt_iff]
  show c ∈ (s.delete row qualifier).1.cells ↔ c ∈ s.cells ∧ _
  rw [mem_cells, mem_cells, get?_delete]
  by_cases hat : row = c.row ∧ qualifier = c.qualifier
  · rw [if_pos hat]
    refine iff_of_false (fun h => ?_) fun h => h.2 ⟨hat.1.symm, hat.2.symm⟩
    cases h
  · rw [if_neg hat, and_iff_left fun heq => hat ⟨heq.1.symm, heq.2.symm⟩]

theorem length_cells (s : RowStore) : s.cells.length = s.size :=
  RowCells.length_storedRows s.rows.toList

/-- No row is there without a cell, so that no row is there if there is no cell. -/
theorem isEmpty_iff (s : RowStore) : s.isEmpty = true ↔ s.size = 0 := by
  rw [← length_cells, List.length_eq_zero_iff, isEmpty, ← Std.TreeMap.isEmpty_toList,
    List.isEmpty_iff, cells, RowCells.storedRows, List.flatMap_eq_nil_iff]
  constructor
  · intro h row hrow
    rw [h] at hrow
    cases hrow
  · intro h
    refine List.eq_nil_iff_forall_not_mem.2 fun row hrow => ?_
    have hcells := s.inhabited row.1 row.2 (Std.TreeMap.mem_toList_iff_getElem?_eq_some.1 hrow)
    rw [RowCells.stored_eq_nil_iff.1 (h row hrow)] at hcells
    cases hcells

/-! ## Ranges -/

theorem isLT_compare (a b : Bytes) : (compare a b).isLT = decide (a < b) := by
  rw [Bool.eq_iff_iff, Ordering.isLT_iff_eq_lt, compare_eq_lt_iff, decide_eq_true_iff]

/-- Every scan has an answer, and it is the one of the store of one list. -/
theorem scan_eq (s : RowStore) (start stop : Bytes) :
    s.scan start stop = .ok (s.inOneList.scan start stop) := by
  rw [scan, CellStore.scan]
  by_cases h : start < stop
  · -- The map is asked only now, so that it never refuses the range.
    have hrange : ¬ stop < start := List.lt_asymm h
    rw [if_neg (not_not.2 h), Machine.rowRange, if_neg hrange, Std.TreeMap.toList_rco compare]
    simp only [← Ordering.not_isLT_eq_isGE, isLT_compare, Bool.decide_and, Bool.decide_eq_true]
    exact congrArg Except.ok (RowCells.storedRows_filter
      (fun row => !decide (row < start) && decide (row < stop)) s.rows.toList)
  · rw [if_pos h]
    refine congrArg Except.ok (List.filter_eq_nil_iff.2 fun c _ hc => ?_).symm
    obtain ⟨hstart, hstop⟩ := Bool.and_eq_true_iff.1 hc
    rw [Bool.not_eq_true', decide_eq_false_iff_not] at hstart
    exact h (List.lt_of_le_of_lt hstart (of_decide_eq_true hstop))

/-- Nothing else goes from a scan with a deletion. -/
theorem scan_delete (s : RowStore) (row qualifier start stop : Bytes) :
    (s.delete row qualifier).1.scan start stop
      = (s.scan start stop).map (List.filter fun c => !c.isAt row qualifier) := by
  rw [scan_eq, scan_eq, inOneList_delete]
  refine congrArg Except.ok ?_
  rw [CellStore.scan, CellStore.scan, CellStore.delete, List.filter_comm]

/-- A store of rows and a store of one list give the same answers. -/
structure Agrees (s : RowStore) (t : CellStore) : Prop where
  scan_eq : ∀ start stop, s.scan start stop = .ok (t.scan start stop)
  existed_eq : ∀ row qualifier, (s.delete row qualifier).2 = (t.delete row qualifier).2
  size_eq : s.size = t.size

theorem agrees_inOneList (s : RowStore) : s.Agrees s.inOneList := by
  refine ⟨s.scan_eq, fun row qualifier => ?_, s.length_cells.symm⟩
  rw [delete_snd, Bool.eq_iff_iff, Option.isSome_iff_exists, CellStore.delete, List.any_eq_true]
  constructor
  · rintro ⟨value, hvalue⟩
    exact ⟨⟨row, qualifier, value⟩, mem_cells.2 hvalue, StoredCell.isAt_iff.2 ⟨rfl, rfl⟩⟩
  · rintro ⟨c, hc, hat⟩
    obtain ⟨rfl, rfl⟩ := StoredCell.isAt_iff.1 hat
    exact ⟨c.value, mem_cells.1 hc⟩

end RowStore

/-! ## Runs -/

/-- A change of one cell. -/
inductive CellOp where
  /-- A value is put at a row and a qualifier. -/
  | put (row qualifier value : Bytes)
  /-- What is at a row and a qualifier is deleted. -/
  | delete (row qualifier : Bytes)

namespace CellOp

/-- The change is about a row and a qualifier. -/
def isAt (row qualifier : Bytes) : CellOp → Bool
  | put row' qualifier' _ => row' == row && qualifier' == qualifier
  | delete row' qualifier' => row' == row && qualifier' == qualifier

/-- The value that the change leaves where it is made. -/
def left : CellOp → Option Bytes
  | put _ _ value => some value
  | delete _ _ => none

/-- What some changes leave at a row and a qualifier: the value of the last change there, which a
deletion does not have. -/
def held (ops : List CellOp) (row qualifier : Bytes) : Option Bytes :=
  (ops.reverse.find? (isAt row qualifier)).bind left

theorem held_concat (ops : List CellOp) (op : CellOp) (row qualifier : Bytes) :
    held (ops ++ [op]) row qualifier
      = if op.isAt row qualifier then op.left else held ops row qualifier := by
  rw [held, List.reverse_concat, List.find?_cons]
  split
  · next hat => rw [if_pos hat, Option.bind_some]
  · next hat => rw [if_neg (Bool.not_eq_true _ ▸ hat), held]

end CellOp

/-- The store of one list after one more change. -/
def CellStore.step (s : CellStore) : CellOp → CellStore
  | .put row qualifier value => s.put row qualifier value
  | .delete row qualifier => (s.delete row qualifier).1

/-- The store of one list after some changes. -/
def CellStore.after (ops : List CellOp) : CellStore := ops.foldl step empty

namespace RowStore

/-- The store after one more change. -/
def step (s : RowStore) : CellOp → RowStore
  | .put row qualifier value => s.put row qualifier value
  | .delete row qualifier => (s.delete row qualifier).1

/-- The store after some changes. -/
def after (ops : List CellOp) : RowStore := ops.foldl step empty

theorem after_concat (ops : List CellOp) (op : CellOp) :
    after (ops ++ [op]) = (after ops).step op := List.foldl_concat ..

theorem get?_step (s : RowStore) (op : CellOp) (row qualifier : Bytes) :
    (s.step op).get? row qualifier
      = if op.isAt row qualifier then op.left else s.get? row qualifier := by
  cases op with
  | put row' qualifier' value =>
    rw [step, get?_put]
    simp only [CellOp.isAt, CellOp.left, Bool.and_eq_true, beq_iff_eq]
  | delete row' qualifier' =>
    rw [step, get?_delete]
    simp only [CellOp.isAt, CellOp.left, Bool.and_eq_true, beq_iff_eq]

theorem get?_after (ops : List CellOp) (row qualifier : Bytes) :
    (after ops).get? row qualifier = CellOp.held ops row qualifier := by
  -- The last change decides, so the changes are taken from the last one on.
  induction ops using List.reverseRecOn with
  | nil => exact congrArg (Option.bind · _) Std.TreeMap.getElem?_emptyc
  | append_singleton ops op ih => rw [after_concat, get?_step, ih, CellOp.held_concat]

theorem inOneList_step (s : RowStore) (op : CellOp) :
    (s.step op).inOneList = s.inOneList.step op := by
  cases op with
  | put row qualifier value => exact s.inOneList_put row qualifier value
  | delete row qualifier => exact s.inOneList_delete row qualifier

theorem inOneList_after (ops : List CellOp) :
    (after ops).inOneList = CellStore.after ops := by
  induction ops using List.reverseRecOn with
  | nil => exact CellStore.ext_mem fun _ => .rfl
  | append_singleton ops op ih =>
    rw [after_concat, inOneList_step, ih, CellStore.after, CellStore.after, List.foldl_concat]

/-! ## The map of a run -/

/-- A store gives the answers of a map from rows and qualifiers to values. -/
structure Answers (s : RowStore) (entries : Bytes → Bytes → Option Bytes) : Prop where
  /-- A scan finds the entries in its range, in order, each of them once. -/
  scan_spec : ∀ start stop, ∃ found, s.scan start stop = .ok found
    ∧ found.Pairwise StoredCell.Before
    ∧ ∀ c, c ∈ found ↔ entries c.row c.qualifier = some c.value ∧ start ≤ c.row ∧ c.row < stop
  /-- A deletion tells whether there was an entry. -/
  existed_eq : ∀ row qualifier, (s.delete row qualifier).2 = (entries row qualifier).isSome
  /-- It takes that entry and no other one from what a scan finds. -/
  scan_delete : ∀ row qualifier start stop, (s.delete row qualifier).1.scan start stop
    = (s.scan start stop).map (List.filter fun c => !c.isAt row qualifier)
  /-- The size is the number of entries. -/
  size_eq : {place : Bytes × Bytes | (entries place.1 place.2).isSome = true}.encard = s.size
  isEmpty_iff : s.isEmpty = true ↔ s.size = 0

theorem scan_spec (s : RowStore) (start stop : Bytes) : ∃ found, s.scan start stop = .ok found
    ∧ found.Pairwise StoredCell.Before
    ∧ ∀ c, c ∈ found ↔ s.get? c.row c.qualifier = some c.value ∧ start ≤ c.row ∧ c.row < stop := by
  refine ⟨_, s.scan_eq start stop, s.pairwise_cells.filter _, fun c => ?_⟩
  rw [CellStore.mem_scan, ← mem_cells]
  rfl

/-- There are as many cells as places that have one. -/
theorem encard_places (s : RowStore) :
    {place : Bytes × Bytes | (s.get? place.1 place.2).isSome = true}.encard = s.size := by
  have hplaces : {p : Bytes × Bytes | (s.get? p.1 p.2).isSome = true}
      = ((s.cells.map StoredCell.place).toFinset : Set (Bytes × Bytes)) := by
    ext p
    rw [Set.mem_ofPred_eq, Finset.mem_coe, List.mem_toFinset, List.mem_map,
      Option.isSome_iff_exists]
    constructor
    · rintro ⟨value, hvalue⟩
      exact ⟨⟨p.1, p.2, value⟩, mem_cells.2 hvalue, rfl⟩
    · rintro ⟨c, hc, rfl⟩
      exact ⟨c.value, mem_cells.1 hc⟩
  have hnodup : (s.cells.map StoredCell.place).Nodup := by
    refine List.pairwise_map.2 (s.pairwise_cells.imp fun {a b} h heq => ?_)
    obtain ⟨hrow, hqualifier⟩ := Prod.mk.inj heq
    exact StoredCell.not_isAt_of_before h (StoredCell.isAt_iff.2 ⟨hrow.symm, hqualifier.symm⟩)
  rw [hplaces, Set.encard_coe_eq_coe_finsetCard, List.toFinset_card_of_nodup hnodup,
    List.length_map, length_cells]

/-- A store is a sorted map.  After every run from the store without cells it gives the answers of
the map from each place to the value that was put there last and not deleted since.  It agrees with
the store of one list after the same run. -/
theorem run_refines (ops : List CellOp) :
    (after ops).Answers (CellOp.held ops) ∧ (after ops).Agrees (CellStore.after ops) := by
  have hget : (after ops).get? = CellOp.held ops := funext₂ (get?_after ops)
  rw [← hget, ← inOneList_after]
  exact ⟨⟨(after ops).scan_spec, (after ops).delete_snd, (after ops).scan_delete,
    (after ops).encard_places, (after ops).isEmpty_iff⟩, (after ops).agrees_inOneList⟩

/-- A row goes with its last cell. -/
example : (after [.put [97] [1] [5], .delete [97] [1]]).isEmpty = true := by decide

end RowStore

end RdfIndex
