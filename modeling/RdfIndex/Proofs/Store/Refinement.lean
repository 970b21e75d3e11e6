import Mathlib.Data.Finset.Card
import RdfIndex.Proofs.Statement.Identity
import RdfIndex.Proofs.Store.Cells
import RdfIndex.Store.Quads

/-!
# Stores are sets of statements

A run of insertions and removals is compared with the same run on a set of statements.  As long as
identifiers tell the terms of the run apart, the store holds the cells of the statements of the set,
six for each of them and nothing else (`Represents`), and a removal answers whether its statement
was in the set.  One step preserves this (`Represents.insert`, `Represents.remove`), and with it a
whole run.

The cells of a statement are recomputed by each operation.  So the step needs that a place belongs
to one statement in one order, `Layout.eq_of_place`.
-/

namespace RdfIndex

/-! ## Runs -/

/-- A change of a store. -/
inductive StoreOp where
  /-- A statement is put in. -/
  | insert (q : Quad)
  /-- A statement is taken out. -/
  | remove (q : Quad)

/-- The statement that a change is about. -/
def StoreOp.quad : StoreOp → Quad
  | insert q => q
  | remove q => q

/-- The set after some changes, and the answer of each removal: whether its statement was there. -/
def runSet (A : Finset Quad) : List StoreOp → Finset Quad × List Bool
  | [] => (A, [])
  | .insert q :: ops => runSet (insert q.normalize A) ops
  | .remove q :: ops =>
    ((runSet (A.erase q.normalize) ops).1,
      decide (q.normalize ∈ A) :: (runSet (A.erase q.normalize) ops).2)

/-- The store after some changes, and the answer of each removal. -/
def QuadStore.run (s : QuadStore) : List StoreOp → Except InsideCharacter (QuadStore × List Bool)
  | [] => .ok (s, [])
  | .insert q :: ops => do
    let s ← s.insert q
    s.run ops
  | .remove q :: ops => do
    let (s, existed) ← s.remove q
    let (s, answers) ← s.run ops
    return (s, existed :: answers)

namespace Layout

/-- The cell of a statement in an order, as it is stored. -/
def storedCell (l : Layout) (q : Quad) (order : Order) : Except InsideCharacter StoredCell :=
  (l.encodeTerms q).map fun e => (l.cellIn (l.idsOf e) e order).stored

/-- A statement whose terms can be encoded and are some of the given ones. -/
structure Admits (l : Layout) (ts : List Term) (q : Quad) : Prop where
  encodes : ∃ e, l.encodeTerms q = .ok e
  terms : ∀ t ∈ q.terms, t ∈ ts

variable {l : Layout} {ts : List Term} {q : Quad} {e : EncodedQuad} {A : Finset Quad}
  {store : CellStore}

theorem Admits.normalize (h : l.Admits ts q) : l.Admits ts q.normalize :=
  ⟨l.encodeTerms_normalize q ▸ h.encodes, fun t ht => h.terms t (Quad.mem_terms_of_normalize ht)⟩

theorem storedCell_normalize (l : Layout) (q : Quad) (order : Order) :
    l.storedCell q.normalize order = l.storedCell q order := by
  rw [storedCell, storedCell, encodeTerms_normalize]

theorem storedCell_of_encodeTerms (h : l.encodeTerms q = .ok e) (order : Order) :
    l.storedCell q order = .ok (l.cellIn (l.idsOf e) e order).stored := by
  rw [storedCell, h]
  rfl

theorem cells_of_encodeTerms (h : l.encodeTerms q = .ok e) :
    l.cells q = .ok (l.cellsFor (l.idsOf e) e) := by
  rw [cells, h]
  rfl

theorem mem_cellsFor {ids : StatementIds} {d : Cell} :
    d ∈ l.cellsFor ids e ↔ ∃ order, l.cellIn ids e order = d := by
  rw [cellsFor, List.mem_map]
  exact ⟨fun ⟨order, _, h⟩ => ⟨order, h⟩, fun ⟨order, h⟩ => ⟨order, order.mem_all, h⟩⟩

/-- The cells of a statement are at different places. -/
theorem pairwise_cellsFor (l : Layout) (ids : StatementIds) (e : EncodedQuad) :
    (l.cellsFor ids e).Pairwise fun d d' => ¬ d.stored.isAt d'.row d'.qualifier = true := by
  have horders : Order.all.Pairwise (· ≠ ·) := by decide
  rw [cellsFor, List.pairwise_map]
  exact horders.imp fun hne hat => hne (order_of_row_eq (StoredCell.isAt_iff.1 hat).1)

/-! ## Sets of statements -/

/-- Statements of a set, each of them normalized and admitted. -/
def AllAdmitted (l : Layout) (ts : List Term) (A : Finset Quad) : Prop :=
  ∀ q ∈ A, q.normalize = q ∧ l.Admits ts q

theorem AllAdmitted.insert (hA : AllAdmitted l ts A) (hq : l.Admits ts q) :
    AllAdmitted l ts (insert q.normalize A) := by
  intro q' hmem
  rcases Finset.mem_insert.1 hmem with rfl | hmem
  · exact ⟨q.normalize_normalize, hq.normalize⟩
  · exact hA q' hmem

theorem AllAdmitted.erase (hA : AllAdmitted l ts A) (q : Quad) :
    AllAdmitted l ts (A.erase q) :=
  fun q' hmem => hA q' (Finset.mem_of_mem_erase hmem)

/-! ## One place, one statement -/

/-- The hypotheses under which places tell statements apart. -/
structure Tells (l : Layout) (ts : List Term) : Prop where
  separates : l.factory.Separates ts
  default_mem : defaultGraph ∈ ts

/-- A cell at the place of a cell of a statement is that cell, if it is a cell of an admitted
statement at all. -/
theorem eq_of_isAt (h : Tells l ts) {q' : Quad} {order order' : Order} {c : StoredCell}
    (hq : l.Admits ts q) (hq' : l.Admits ts q') (he : l.encodeTerms q = .ok e)
    (hc : l.storedCell q' order' = .ok c)
    (hat : c.isAt (l.row order (l.idsOf e)) (l.qualifier order (l.idsOf e)) = true) :
    q'.normalize = q.normalize ∧ order' = order := by
  obtain ⟨e', he', rfl⟩ := ok_of_map hc
  obtain ⟨hrow, hqual⟩ := StoredCell.isAt_iff.1 hat
  exact eq_of_place h.separates h.default_mem hq'.terms hq.terms he' he hrow hqual

/-! ## One step -/

/-- The cells of a store are those of a set. -/
def HoldsCells (l : Layout) (store : CellStore) (A : Finset Quad) : Prop :=
  ∀ c, c ∈ store.cells ↔ ∃ q ∈ A, ∃ order, l.storedCell q order = .ok c

/-- A statement has a cell at the place of each cell that it would be stored in. -/
theorem not_isAt_of_ne (h : Tells l ts) (hA : AllAdmitted l ts A) (hq : l.Admits ts q)
    (he : l.encodeTerms q = .ok e) {q' : Quad} (hmem : q' ∈ A) (hne : q' ≠ q.normalize)
    {order : Order} {c : StoredCell} (hc : l.storedCell q' order = .ok c) :
    ∀ d ∈ l.cellsFor (l.idsOf e) e, ¬ c.isAt d.row d.qualifier = true := by
  intro d hd hat
  obtain ⟨order', rfl⟩ := mem_cellsFor.1 hd
  obtain ⟨hnormal, hadmits⟩ := hA q' hmem
  have heq := (eq_of_isAt h hq hadmits he hc hat).1
  exact hne (hnormal.symm.trans heq)

theorem holdsCells_insert (h : Tells l ts) (hA : AllAdmitted l ts A) (hq : l.Admits ts q)
    (he : l.encodeTerms q = .ok e) (hstore : HoldsCells l store A) :
    HoldsCells l (store.putAll (l.cellsFor (l.idsOf e) e)) (insert q.normalize A) := by
  intro c
  rw [CellStore.mem_putAll (l.pairwise_cellsFor _ _), hstore c]
  constructor
  · rintro (⟨d, hd, rfl⟩ | ⟨⟨q', hmem, order, hc⟩, _⟩)
    · obtain ⟨order, rfl⟩ := mem_cellsFor.1 hd
      refine ⟨q.normalize, Finset.mem_insert_self _ _, order, ?_⟩
      rw [storedCell_normalize, storedCell_of_encodeTerms he]
    · exact ⟨q', Finset.mem_insert_of_mem hmem, order, hc⟩
  · rintro ⟨q', hmem, order, hc⟩
    by_cases heq : q' = q.normalize
    · subst heq
      rw [storedCell_normalize, storedCell_of_encodeTerms he] at hc
      exact .inl ⟨_, mem_cellsFor.2 ⟨order, rfl⟩, Except.ok.inj hc⟩
    · have hmem := (Finset.mem_insert.1 hmem).resolve_left heq
      exact .inr ⟨⟨q', hmem, order, hc⟩, not_isAt_of_ne h hA hq he hmem heq hc⟩

theorem holdsCells_remove (h : Tells l ts) (hA : AllAdmitted l ts A) (hq : l.Admits ts q)
    (he : l.encodeTerms q = .ok e) (hstore : HoldsCells l store A) :
    HoldsCells l (store.deleteAll (l.cellsFor (l.idsOf e) e)) (A.erase q.normalize) := by
  intro c
  rw [CellStore.mem_deleteAll, hstore c]
  constructor
  · rintro ⟨⟨q', hmem, order, hc⟩, hall⟩
    refine ⟨q', Finset.mem_erase.2 ⟨?_, hmem⟩, order, hc⟩
    rintro rfl
    rw [storedCell_normalize, storedCell_of_encodeTerms he] at hc
    cases hc
    exact hall _ (mem_cellsFor.2 ⟨order, rfl⟩) (StoredCell.isAt_iff.2 ⟨rfl, rfl⟩)
  · rintro ⟨q', hmem, order, hc⟩
    obtain ⟨hne, hmem⟩ := Finset.mem_erase.1 hmem
    exact ⟨⟨q', hmem, order, hc⟩, not_isAt_of_ne h hA hq he hmem hne hc⟩

/-- A removal answers whether its statement is in the set. -/
theorem existed_iff (h : Tells l ts) (hA : AllAdmitted l ts A) (hq : l.Admits ts q)
    (he : l.encodeTerms q = .ok e) (hstore : HoldsCells l store A) :
    (l.cellsFor (l.idsOf e) e).any (fun c =>
      c.order == .spo && (store.get? c.row c.qualifier).isSome) = decide (q.normalize ∈ A) := by
  rw [Bool.eq_iff_iff, List.any_eq_true, decide_eq_true_eq]
  constructor
  · rintro ⟨d, hd, hfound⟩
    obtain ⟨order, rfl⟩ := mem_cellsFor.1 hd
    obtain ⟨c, hc, hat⟩ := CellStore.isSome_get?.1 (Bool.and_eq_true_iff.1 hfound).2
    obtain ⟨q', hmem, order', hcell⟩ := (hstore c).1 hc
    obtain ⟨hnormal, hadmits⟩ := hA q' hmem
    have heq := (eq_of_isAt h hq hadmits he hcell hat).1
    rw [← heq, hnormal]
    exact hmem
  · intro hmem
    refine ⟨l.cellIn (l.idsOf e) e .spo, mem_cellsFor.2 ⟨.spo, rfl⟩, ?_⟩
    rw [Bool.and_eq_true]
    refine ⟨rfl, CellStore.isSome_get?.2 ⟨(l.cellIn (l.idsOf e) e .spo).stored, ?_, ?_⟩⟩
    · refine (hstore _).2 ⟨q.normalize, hmem, .spo, ?_⟩
      rw [storedCell_normalize, storedCell_of_encodeTerms he]
    · exact StoredCell.isAt_iff.2 ⟨rfl, rfl⟩

/-- Each order alone tells which statements are in the set. -/
theorem exists_storedCell_iff (h : Tells l ts) (hA : AllAdmitted l ts A) (hq : l.Admits ts q)
    (hstore : HoldsCells l store A) (order : Order) :
    (∃ c ∈ store.cells, l.storedCell q order = .ok c) ↔ q.normalize ∈ A := by
  obtain ⟨e, he⟩ := hq.encodes
  constructor
  · rintro ⟨c, hc, hcell⟩
    obtain ⟨q', hmem, order', hcell'⟩ := (hstore c).1 hc
    obtain ⟨hnormal, hadmits⟩ := hA q' hmem
    rw [storedCell_of_encodeTerms he] at hcell
    cases hcell
    have heq := (eq_of_isAt h hq hadmits he hcell' (StoredCell.isAt_iff.2 ⟨rfl, rfl⟩)).1
    rw [← heq, hnormal]
    exact hmem
  · intro hmem
    refine ⟨(l.cellIn (l.idsOf e) e order).stored, ?_, storedCell_of_encodeTerms he order⟩
    refine (hstore _).2 ⟨q.normalize, hmem, order, ?_⟩
    rw [storedCell_normalize, storedCell_of_encodeTerms he]

/-! ## The number of cells -/

/-- The cells of a statement as they are stored, none if it cannot be encoded. -/
def storedCells (l : Layout) (q : Quad) : List StoredCell :=
  ((l.cells q).toOption.getD []).map Cell.stored

theorem storedCells_of_encodeTerms (h : l.encodeTerms q = .ok e) :
    l.storedCells q = Order.all.map fun order => (l.cellIn (l.idsOf e) e order).stored := by
  rw [storedCells, cells_of_encodeTerms h]
  exact List.map_map

theorem length_storedCells (h : l.encodeTerms q = .ok e) : (l.storedCells q).length = 6 := by
  rw [storedCells_of_encodeTerms h, List.length_map]
  rfl

theorem mem_storedCells (h : l.encodeTerms q = .ok e) {c : StoredCell} :
    c ∈ l.storedCells q ↔ ∃ order, l.storedCell q order = .ok c := by
  rw [storedCells_of_encodeTerms h, List.mem_map]
  constructor
  · rintro ⟨order, _, rfl⟩
    exact ⟨order, storedCell_of_encodeTerms h order⟩
  · rintro ⟨order, hc⟩
    rw [storedCell_of_encodeTerms h] at hc
    exact ⟨order, order.mem_all, Except.ok.inj hc⟩

theorem nodup_storedCells (h : l.encodeTerms q = .ok e) : (l.storedCells q).Nodup := by
  have horders : Order.all.Nodup := by decide
  rw [storedCells_of_encodeTerms h]
  refine List.Nodup.map_on ?_ horders
  intro order _ order' _ heq
  exact order_of_row_eq (congrArg StoredCell.row heq)

/-- No cell is one of two statements. -/
theorem disjoint_storedCells (h : Tells l ts) (hA : AllAdmitted l ts A) {q' : Quad} (hq : q ∈ A)
    (hq' : q' ∈ A) (hne : q ≠ q') : (l.storedCells q).Disjoint (l.storedCells q') := by
  obtain ⟨hnormal, hadmits⟩ := hA q hq
  obtain ⟨hnormal', hadmits'⟩ := hA q' hq'
  obtain ⟨e, he⟩ := hadmits.encodes
  obtain ⟨e', he'⟩ := hadmits'.encodes
  intro c hc hc'
  obtain ⟨order, hcell⟩ := (mem_storedCells he).1 hc
  obtain ⟨order', hcell'⟩ := (mem_storedCells he').1 hc'
  rw [storedCell_of_encodeTerms he'] at hcell'
  cases hcell'
  have heq := (eq_of_isAt h hadmits' hadmits he' hcell (StoredCell.isAt_iff.2 ⟨rfl, rfl⟩)).1
  exact hne (hnormal.symm.trans (heq.trans hnormal'))

theorem size_of_holdsCells (h : Tells l ts) (hA : AllAdmitted l ts A)
    (hstore : HoldsCells l store A) : store.size = 6 * A.card := by
  have hencodes : ∀ q ∈ A, ∃ e, l.encodeTerms q = .ok e := fun q hq => (hA q hq).2.encodes
  have hnodup : (A.toList.flatMap l.storedCells).Nodup := by
    rw [List.nodup_flatMap]
    constructor
    · intro q hq
      obtain ⟨e, he⟩ := hencodes q (Finset.mem_toList.1 hq)
      exact nodup_storedCells he
    · refine A.nodup_toList.imp_of_mem fun hq hq' hne => ?_
      exact disjoint_storedCells h hA (Finset.mem_toList.1 hq) (Finset.mem_toList.1 hq') hne
  have hperm : store.cells.Perm (A.toList.flatMap l.storedCells) := by
    refine (List.perm_ext_iff_of_nodup store.nodup_cells hnodup).2 fun c => ?_
    rw [hstore c, List.mem_flatMap]
    refine exists_congr fun q => ?_
    rw [Finset.mem_toList]
    refine and_congr_right fun hq => ?_
    obtain ⟨e, he⟩ := hencodes q hq
    exact (mem_storedCells he).symm
  have hlength : ∀ q ∈ A.toList, (l.storedCells q).length = 6 := by
    intro q hq
    obtain ⟨e, he⟩ := hencodes q (Finset.mem_toList.1 hq)
    exact length_storedCells he
  rw [CellStore.size, hperm.length_eq, List.length_flatMap, List.map_congr_left hlength,
    List.map_const', List.sum_replicate_nat, Finset.length_toList, Nat.mul_comm]

end Layout

/-! ## Whole runs -/

namespace QuadStore

variable {l : Layout} {ts : List Term} {A : Finset Quad}

theorem insert_of_encodeTerms {s : QuadStore} {q : Quad} {e : EncodedQuad}
    (h : s.layout.encodeTerms q = .ok e) : s.insert q
      = .ok { s with store := s.store.putAll (s.layout.cellsFor (s.layout.idsOf e) e) } := by
  rw [QuadStore.insert, Layout.cells_of_encodeTerms h]
  rfl

theorem remove_of_encodeTerms {s : QuadStore} {q : Quad} {e : EncodedQuad}
    (h : s.layout.encodeTerms q = .ok e) : s.remove q
      = .ok ({ s with store := s.store.deleteAll (s.layout.cellsFor (s.layout.idsOf e) e) },
        (s.layout.cellsFor (s.layout.idsOf e) e).any fun c =>
          c.order == .spo && (s.store.get? c.row c.qualifier).isSome) := by
  rw [remove, Layout.cells_of_encodeTerms h]
  rfl

theorem run_insert {s s' : QuadStore} {q : Quad} (h : s.insert q = .ok s') (ops : List StoreOp) :
    s.run (.insert q :: ops) = s'.run ops := by
  rw [run, h]
  rfl

theorem run_remove {s s' t : QuadStore} {q : Quad} {existed : Bool} {ops : List StoreOp}
    {answers : List Bool} (h : s.remove q = .ok (s', existed))
    (hrun : s'.run ops = .ok (t, answers)) :
    s.run (.remove q :: ops) = .ok (t, existed :: answers) := by
  rw [run, h]
  simp only [bind, Except.bind, hrun]
  rfl

/-- What a store holds after a run that started from a set is what the set has become. -/
theorem run_holdsCells (h : l.Tells ts) (ops : List StoreOp) :
    ∀ {s : QuadStore} {A : Finset Quad}, s.layout = l → l.AllAdmitted ts A →
      l.HoldsCells s.store A → (∀ op ∈ ops, l.Admits ts op.quad) →
      ∃ s', s.run ops = .ok (s', (runSet A ops).2) ∧ s'.layout = l
        ∧ l.AllAdmitted ts (runSet A ops).1 ∧ l.HoldsCells s'.store (runSet A ops).1 := by
  induction ops with
  | nil =>
    intro s A hl hA hstore _
    exact ⟨s, rfl, hl, hA, hstore⟩
  | cons op ops ih =>
    intro s A hl hA hstore hops
    obtain ⟨hop, hlater⟩ := List.forall_mem_cons.1 hops
    obtain ⟨e, he⟩ := hop.encodes
    subst hl
    cases op with
    | insert q =>
      obtain ⟨s', hrun, hrest⟩ := ih (s := { s with store := s.store.putAll _ }) rfl
        (hA.insert hop) (Layout.holdsCells_insert h hA hop he hstore) hlater
      exact ⟨s', (run_insert (insert_of_encodeTerms he) ops).trans hrun, hrest⟩
    | remove q =>
      have hexisted := Layout.existed_iff h hA hop he hstore
      obtain ⟨s', hrun, hrest⟩ := ih (s := { s with store := s.store.deleteAll _ }) rfl
        (hA.erase q.normalize) (Layout.holdsCells_remove h hA hop he hstore) hlater
      have hremove := run_remove (remove_of_encodeTerms he) hrun
      rw [hexisted] at hremove
      exact ⟨s', hremove, hrest⟩

/-! ## The store and the set -/

/-- The terms of a run, and the name of the default graph. -/
def opTerms (ops : List StoreOp) : List Term := defaultGraph :: ops.flatMap fun op => op.quad.terms

theorem mem_opTerms {ops : List StoreOp} {op : StoreOp} {t : Term} (hop : op ∈ ops)
    (ht : t ∈ op.quad.terms) : t ∈ opTerms ops :=
  List.mem_cons_of_mem _ (List.mem_flatMap.2 ⟨op, hop, ht⟩)

/-- The store holds the cells of the statements of a set, six for each of them, and nothing else. -/
structure Represents (s : QuadStore) (A : Finset Quad) : Prop where
  mem_iff : ∀ c, c ∈ s.store.cells ↔ ∃ q ∈ A, ∃ order, s.layout.storedCell q order = .ok c
  size_eq : s.store.size = 6 * A.card

/-- A run whose statements can be encoded and whose terms have different identifiers. -/
structure IsRun (l : Layout) (ops : List StoreOp) : Prop where
  encodes : ∀ op ∈ ops, ∃ cells, l.cells op.quad = .ok cells
  separates : l.factory.Separates (opTerms ops)

theorem IsRun.tells {ops : List StoreOp} (h : IsRun l ops) : l.Tells (opTerms ops) :=
  ⟨h.separates, List.mem_cons_self⟩

theorem IsRun.admits {ops : List StoreOp} (h : IsRun l ops) :
    ∀ op ∈ ops, l.Admits (opTerms ops) op.quad := by
  intro op hop
  obtain ⟨cells, hcells⟩ := h.encodes op hop
  obtain ⟨e, he, _⟩ := ok_of_map hcells
  exact ⟨⟨e, he⟩, fun t ht => mem_opTerms hop ht⟩

theorem allAdmitted_empty (l : Layout) (ts : List Term) : l.AllAdmitted ts ∅ := by
  intro q hq
  exact absurd hq (Finset.notMem_empty q)

theorem holdsCells_empty (l : Layout) : l.HoldsCells CellStore.empty ∅ := by
  intro c
  constructor
  · intro hc
    cases hc
  · rintro ⟨q, hq, _⟩
    exact absurd hq (Finset.notMem_empty q)

/-- What the beginning of a run leaves of the store without statements. -/
theorem IsRun.holdsCells {ops done : List StoreOp} (h : IsRun l ops) (hdone : done <+: ops) :
    ∃ s, (empty l).run done = .ok (s, (runSet ∅ done).2) ∧ s.layout = l
      ∧ l.AllAdmitted (opTerms ops) (runSet ∅ done).1 ∧ l.HoldsCells s.store (runSet ∅ done).1 :=
  run_holdsCells h.tells done rfl (allAdmitted_empty l _) (holdsCells_empty l)
    fun op hop => h.admits op (hdone.subset hop)

/-- A store is determined by the set that it represents. -/
theorem eq_of_holdsCells {s s' : QuadStore} (hl : s.layout = l) (hl' : s'.layout = l)
    (h : l.HoldsCells s.store A) (h' : l.HoldsCells s'.store A) : s = s' := by
  have hstore : s.store = s'.store := CellStore.ext_mem fun c => (h c).trans (h' c).symm
  cases s
  cases s'
  cases hl
  cases hl'
  cases hstore
  rfl

/-- A store refines a set of statements.  After every step of a run the store represents the set
that the same steps make of the empty set, every removal has answered whether its statement was in
the set, and each order alone holds the statements of the set.  Runs that come to the same set leave
the same store. -/
theorem run_represents (l : Layout) :
    (∀ ops, IsRun l ops → ∀ done, done <+: ops →
      ∃ s, (empty l).run done = .ok (s, (runSet ∅ done).2)
        ∧ s.Represents (runSet ∅ done).1
        ∧ ∀ op ∈ ops, ∀ order, (∃ c ∈ s.store.cells, l.storedCell op.quad order = .ok c)
          ↔ op.quad.normalize ∈ (runSet ∅ done).1)
    ∧ ∀ ops ops', IsRun l ops → IsRun l ops' → (runSet ∅ ops).1 = (runSet ∅ ops').1 →
      ∀ s s' answers answers', (empty l).run ops = .ok (s, answers) →
        (empty l).run ops' = .ok (s', answers') → s = s' := by
  constructor
  · intro ops h done hdone
    obtain ⟨s, hrun, rfl, hA, hstore⟩ := h.holdsCells hdone
    refine ⟨s, hrun, ⟨hstore, Layout.size_of_holdsCells h.tells hA hstore⟩, ?_⟩
    intro op hop order
    exact Layout.exists_storedCell_iff h.tells hA (h.admits op hop) hstore order
  · intro ops ops' h h' hsets s s' answers answers' hs hs'
    obtain ⟨t, hrun, hl, _, hstore⟩ := h.holdsCells List.prefix_rfl
    obtain ⟨t', hrun', hl', _, hstore'⟩ := h'.holdsCells List.prefix_rfl
    rw [hrun] at hs
    rw [hrun'] at hs'
    cases hs
    cases hs'
    exact eq_of_holdsCells hl hl' hstore (hsets ▸ hstore')

/-! ## A run to look at -/

/-- Identifiers of eight bytes, with key hashes of different widths. -/
def sampleLayout : Layout :=
  ⟨⟨⟨.sipHash, 8, true, by decide, by decide⟩, .bare⟩, ⟨1, 2, 3, 8⟩, by decide, _, rfl⟩

/-- A statement in a graph. -/
def sampleQuad (context : Option Term) : Quad := ⟨.iri "urn:s", .iri "urn:p", .blank "o", context⟩

/-- A statement is put into the default graph by its name and into a named graph, and taken out of
the default graph again. -/
def sampleOps : List StoreOp :=
  [.insert (sampleQuad (some defaultGraph)), .insert (sampleQuad (some (.iri "urn:g"))),
    .remove (sampleQuad none)]

theorem readable_of_toOption {q : Quad} (h : (l.encodeTerms q).toOption.any
    (fun e => decide (e.valueBytes.length < positionLimit)) = true) :
    ∃ e, l.encodeTerms q = .ok e ∧ e.valueBytes.length < positionLimit := by
  obtain ⟨e, he, hlimit⟩ := ok_of_any h
  exact ⟨e, he, of_decide_eq_true hlimit⟩

theorem separates_of_toOption
    (h : ∀ t ∈ ts, ∀ u ∈ ts, (l.factory.id t).toOption = (l.factory.id u).toOption → t = u) :
    l.factory.Separates ts := by
  intro t ht u hu id hid hid'
  refine h t ht u hu ?_
  rw [hid, hid']

theorem isRun_of_toOption {ops : List StoreOp}
    (hencodes : ∀ op ∈ ops, (l.cells op.quad).toOption.isSome = true)
    (hsep : ∀ t ∈ opTerms ops, ∀ u ∈ opTerms ops,
      (l.factory.id t).toOption = (l.factory.id u).toOption → t = u) : IsRun l ops :=
  ⟨fun op hop => ok_of_isSome (hencodes op hop), separates_of_toOption hsep⟩

theorem isRun_sampleOps : IsRun sampleLayout sampleOps :=
  isRun_of_toOption (by decide +kernel) (by decide +kernel)

theorem run_represents_sampleOps :
    ∃ s, (empty sampleLayout).run sampleOps = .ok (s, [true]) ∧ s.store.size = 6
      ∧ (empty sampleLayout).run [.insert (sampleQuad (some (.iri "urn:g")))] = .ok (s, []) := by
  have hone : IsRun sampleLayout [.insert (sampleQuad (some (.iri "urn:g")))] :=
    isRun_of_toOption (by decide +kernel) (by decide +kernel)
  obtain ⟨hruns, heq⟩ := run_represents sampleLayout
  obtain ⟨s, hrun, hs, _⟩ := hruns sampleOps isRun_sampleOps sampleOps List.prefix_rfl
  obtain ⟨s', hrun', _, _⟩ := hruns _ hone _ List.prefix_rfl
  have hsame := heq sampleOps _ isRun_sampleOps hone (by decide) s s' _ _ hrun hrun'
  exact ⟨s, hrun, hs.size_eq, hsame ▸ hrun'⟩

end QuadStore

end RdfIndex
