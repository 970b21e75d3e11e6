import RdfIndex.Proofs.Statement.Range
import RdfIndex.Proofs.Store.Refinement

/-!
# Stores whose identifiers collide

Here nothing is assumed of identifiers, so cells of different statements may be at one place and
overwrite or delete each other.  A store holds the cells that nothing later in the run was at the
place of (`mem_cells_run_iff`).  All of them can be read, but for those whose order has the context
and whose statement is in a named graph with the identifier of the default graph: the identifiers
of such a cell are without a graph and its value is with one.  A lookup fails if and only if there
is such a cell in its range.
-/

namespace RdfIndex

namespace Layout

variable {l : Layout} {q : Quad} {e : EncodedQuad} {order : Order} {c : StoredCell}
  {ops : List StoreOp}

/-! ## Cells that nothing later was at the place of -/

/-- A statement that can be encoded, to a value that can be read. -/
def Storable (l : Layout) (q : Quad) : Prop :=
  ∃ e, l.encodeTerms q = .ok e ∧ e.valueBytes.length < positionLimit

/-- A statement has a cell at the place of another cell. -/
def Reaches (l : Layout) (q : Quad) (c : StoredCell) : Prop :=
  ∃ order d, l.storedCell q order = .ok d ∧ c.isAt d.row d.qualifier = true

/-- A run has put in a cell of a statement and has not reached its place again. -/
inductive Leaves (l : Layout) (q : Quad) (order : Order) (c : StoredCell) :
    List StoreOp → Prop where
  /-- The statement is put in first, and no later one reaches the cell. -/
  | put {ops : List StoreOp} : l.storedCell q order = .ok c →
    (∀ op ∈ ops, ¬ l.Reaches op.quad c) → Leaves l q order c (.insert q :: ops)
  /-- The cell is left by the later part of the run. -/
  | later {op : StoreOp} {ops : List StoreOp} : Leaves l q order c ops →
    Leaves l q order c (op :: ops)

theorem Leaves.mem (h : l.Leaves q order c ops) : .insert q ∈ ops := by
  induction h with
  | put _ _ => exact List.mem_cons_self
  | later _ ih => exact List.mem_cons_of_mem _ ih

theorem Leaves.storedCell (h : l.Leaves q order c ops) : l.storedCell q order = .ok c := by
  induction h with
  | put hcell _ => exact hcell
  | later _ ih => exact ih

theorem not_reaches_iff (he : l.encodeTerms q = .ok e) :
    (∀ d ∈ l.cellsFor (l.idsOf e) e, ¬ c.isAt d.row d.qualifier = true) ↔ ¬ l.Reaches q c := by
  constructor
  · rintro hall ⟨order, d, hd, hat⟩
    rw [storedCell_of_encodeTerms he] at hd
    cases hd
    exact hall _ (mem_cellsFor.2 ⟨order, rfl⟩) hat
  · rintro hreaches d hd hat
    obtain ⟨order, rfl⟩ := mem_cellsFor.1 hd
    exact hreaches ⟨order, _, storedCell_of_encodeTerms he order, hat⟩

/-- A statement that is put in has all its cells in the store, whatever was at their places. -/
theorem mem_putAll_cellsFor {store : CellStore} (he : l.encodeTerms q = .ok e) :
    c ∈ (store.putAll (l.cellsFor (l.idsOf e) e)).cells
      ↔ (∃ order, l.storedCell q order = .ok c) ∨ (c ∈ store.cells ∧ ¬ l.Reaches q c) := by
  rw [CellStore.mem_putAll (l.pairwise_cellsFor _ _), not_reaches_iff he]
  refine or_congr_left ⟨?_, ?_⟩
  · rintro ⟨d, hd, rfl⟩
    obtain ⟨order, rfl⟩ := mem_cellsFor.1 hd
    exact ⟨order, storedCell_of_encodeTerms he order⟩
  · rintro ⟨order, hcell⟩
    rw [storedCell_of_encodeTerms he] at hcell
    exact ⟨_, mem_cellsFor.2 ⟨order, rfl⟩, Except.ok.inj hcell⟩

theorem mem_deleteAll_cellsFor {store : CellStore} (he : l.encodeTerms q = .ok e) :
    c ∈ (store.deleteAll (l.cellsFor (l.idsOf e) e)).cells
      ↔ c ∈ store.cells ∧ ¬ l.Reaches q c := by
  rw [CellStore.mem_deleteAll, not_reaches_iff he]

/-! ## Cells that cannot be read -/

/-- A statement is in a named graph that has the identifier of the default graph. -/
def TakenForDefault (l : Layout) (q : Quad) : Prop :=
  ∃ g, q.context = some g ∧ g ≠ defaultGraph ∧ l.factory.id g = .ok l.defaultContext

theorem clashes_iff_takenForDefault (he : l.encodeTerms q = .ok e) :
    l.clashes (l.idsOf e) = true ↔ l.TakenForDefault q := by
  rw [clashes_iff, TakenForDefault]
  rcases (encodesTo_of_encodeTerms he).context with ⟨hq, hnone⟩ | ⟨g, c, hq, hencode, hsome⟩
  · rw [idsOf, hnone]
    constructor
    · intro h
      cases h
    · rintro ⟨g, hg, hne, _⟩
      rw [Quad.context_normalize_eq_some.2 ⟨hg, hne⟩] at hq
      cases hq
  · obtain ⟨hg, hne⟩ := Quad.context_normalize_eq_some.1 hq
    have hid := IdFactory.id_of_encode hencode
    rw [idsOf, hsome, Option.map_some, Option.some.injEq]
    constructor
    · intro h
      exact ⟨g, hg, hne, h ▸ hid⟩
    · rintro ⟨g', hg', _, hid'⟩
      rw [hg] at hg'
      cases hg'
      exact Except.ok.inj (hid.symm.trans hid')

/-- The cell of a statement in an order cannot be read. -/
def Unreadable (l : Layout) (q : Quad) (order : Order) : Prop :=
  order.hasContext = true ∧ l.TakenForDefault q

theorem readCell_storedCell (h : l.Storable q) (hc : l.storedCell q order = .ok c) :
    (l.Unreadable q order ∧ l.readCell order c.row c.qualifier c.value = .error (.context order))
      ∨ (¬ l.Unreadable q order
        ∧ ∃ ids, l.readCell order c.row c.qualifier c.value = .ok ⟨ids, q.normalize⟩) := by
  obtain ⟨e, he, hlimit⟩ := h
  rw [storedCell_of_encodeTerms he] at hc
  cases hc
  have hread := readCell_cellIn (encodesTo_of_encodeTerms he) hlimit order
  have hunreadable : (order.hasContext && l.clashes (l.idsOf e)) = true ↔ l.Unreadable q order := by
    rw [Bool.and_eq_true, clashes_iff_takenForDefault he, Unreadable]
  by_cases hq : l.Unreadable q order
  · rw [if_pos (hunreadable.2 hq)] at hread
    exact .inl ⟨hq, hread⟩
  · rw [if_neg fun h => hq (hunreadable.1 h)] at hread
    exact .inr ⟨hq, _, hread⟩

theorem readable_iff (h : l.Storable q) (hc : l.storedCell q order = .ok c) :
    (∃ b, l.readCell order c.row c.qualifier c.value = .ok b) ↔ ¬ l.Unreadable q order :=
  (ok_iff_not ((readCell_storedCell h hc).imp_right fun ⟨hq, _, hok⟩ => ⟨hq, _, hok⟩)).1

/-- A run leaves a cell in the range of a pattern that cannot be read. -/
def Blocks (l : Layout) (ops : List StoreOp) (p : Pattern) : Prop :=
  ∃ q c, l.Leaves q p.order c ops ∧ l.Unreadable q p.order
    ∧ ¬ c.row < (l.scan p).start ∧ c.row < (l.scan p).stop

end Layout

namespace QuadStore

variable {l : Layout} {ops : List StoreOp}

/-! ## Runs -/

/-- What a store holds after a run is what the run leaves, and what was there and is not reached. -/
theorem mem_cells_run_iff : ∀ {s : QuadStore}, s.layout = l → (∀ op ∈ ops, l.Storable op.quad) →
    ∃ s' answers, s.run ops = .ok (s', answers) ∧ s'.layout = l
      ∧ ∀ c, c ∈ s'.store.cells ↔ (∃ q order, l.Leaves q order c ops)
        ∨ (c ∈ s.store.cells ∧ ∀ op ∈ ops, ¬ l.Reaches op.quad c) := by
  induction ops with
  | nil =>
    intro s hl _
    refine ⟨s, [], rfl, hl, fun c => ⟨fun hc => .inr ⟨hc, nofun⟩, ?_⟩⟩
    rintro (⟨q, order, hleaves⟩ | ⟨hc, _⟩)
    · cases hleaves
    · exact hc
  | cons op ops ih =>
    intro s hl hops
    obtain ⟨⟨e, he, _⟩, hlater⟩ := List.forall_mem_cons.1 hops
    subst hl
    cases op with
    | insert q =>
      obtain ⟨s', answers, hrun, hlayout, hcells⟩ :=
        ih (s := { s with store := s.store.putAll _ }) rfl hlater
      refine ⟨s', answers, (run_insert (insert_of_encodeTerms he) ops).trans hrun, hlayout, ?_⟩
      intro c
      rw [hcells, Layout.mem_putAll_cellsFor he, List.forall_mem_cons]
      constructor
      · rintro (⟨q', order, hleaves⟩ | ⟨⟨order, hcell⟩ | ⟨hc, hq⟩, hrest⟩)
        · exact .inl ⟨q', order, .later hleaves⟩
        · exact .inl ⟨q, order, .put hcell hrest⟩
        · exact .inr ⟨hc, hq, hrest⟩
      · rintro (⟨q', order, hleaves⟩ | ⟨hc, hq, hrest⟩)
        · cases hleaves with
          | put hcell hrest => exact .inr ⟨.inl ⟨order, hcell⟩, hrest⟩
          | later hleaves => exact .inl ⟨q', order, hleaves⟩
        · exact .inr ⟨.inr ⟨hc, hq⟩, hrest⟩
    | remove q =>
      obtain ⟨s', answers, hrun, hlayout, hcells⟩ :=
        ih (s := { s with store := s.store.deleteAll _ }) rfl hlater
      refine ⟨s', _, run_remove (remove_of_encodeTerms he) hrun, hlayout, ?_⟩
      intro c
      rw [hcells, Layout.mem_deleteAll_cellsFor he, List.forall_mem_cons, and_assoc]
      refine or_congr_left ⟨?_, ?_⟩
      · rintro ⟨q', order, hleaves⟩
        exact ⟨q', order, .later hleaves⟩
      · rintro ⟨q', order, hleaves⟩
        cases hleaves with
        | later hleaves => exact ⟨q', order, hleaves⟩

/-! ## Lookups that fail -/

/-- The store after a run from the store without statements. -/
theorem run_empty (hops : ∀ op ∈ ops, l.Storable op.quad) :
    ∃ s answers, (empty l).run ops = .ok (s, answers) ∧ s.layout = l
      ∧ ∀ c, c ∈ s.store.cells ↔ ∃ q order, l.Leaves q order c ops := by
  obtain ⟨s, answers, hrun, hl, hcells⟩ := mem_cells_run_iff (s := empty l) rfl hops
  refine ⟨s, answers, hrun, hl, fun c => (hcells c).trans ⟨?_, .inl⟩⟩
  rintro (hleaves | ⟨hc, _⟩)
  · exact hleaves
  · cases hc

/-- The cells of a range are read one by one, and the first that cannot be read ends the lookup. -/
theorem find_of_cells {s : QuadStore} (hl : s.layout = l) (hops : ∀ op ∈ ops, l.Storable op.quad)
    (hcells : ∀ c, c ∈ s.store.cells ↔ ∃ q order, l.Leaves q order c ops) (p : Pattern) :
    (l.Blocks ops p ∧ s.find p = .error (.context p.order))
      ∨ (¬ l.Blocks ops p ∧ ∃ found, s.find p = .ok found) := by
  subst hl
  let read : StoredCell → Except DecodeError CellContent := fun c =>
    s.layout.readCell p.order c.row c.qualifier c.value
  have hleft : ∀ c ∈ s.store.scan (s.layout.scan p).start (s.layout.scan p).stop,
      ∃ q, s.layout.Leaves q p.order c ops := by
    intro c hc
    obtain ⟨hmem, hlow, hhigh⟩ := CellStore.mem_scan.1 hc
    obtain ⟨q, order, hleaves⟩ := (hcells c).1 hmem
    obtain ⟨e, _, rfl⟩ := ok_of_map hleaves.storedCell
    obtain rfl := Layout.orderByte_inj (Layout.order_of_between hlow hhigh)
    exact ⟨q, hleaves⟩
  have hread : ∀ {q c}, s.layout.Leaves q p.order c ops →
      (s.layout.Unreadable q p.order ∧ read c = .error (.context p.order))
        ∨ (¬ s.layout.Unreadable q p.order ∧ ∃ ids, read c = .ok ⟨ids, q.normalize⟩) :=
    fun hleaves => Layout.readCell_storedCell (hops _ hleaves.mem) hleaves.storedCell
  by_cases hblocks : s.layout.Blocks ops p
  · refine .inl ⟨hblocks, ?_⟩
    obtain ⟨q, c, hleaves, hq, hbetween⟩ := hblocks
    have hc := CellStore.mem_scan.2 ⟨(hcells c).2 ⟨q, p.order, hleaves⟩, hbetween⟩
    have herror : read c = .error (.context p.order) :=
      ((hread hleaves).resolve_right fun h => h.1 hq).2
    have hmapM := mapM_error (f := read) (fun c' hc' => by
      obtain ⟨q', hleaves'⟩ := hleft c' hc'
      exact (hread hleaves').imp And.right fun ⟨_, ids, hok⟩ => ⟨_, hok⟩) ⟨c, hc, herror⟩
    rw [find, collect]
    exact congrArg (· >>= _) hmapM
  · refine .inr ⟨hblocks, ?_⟩
    obtain ⟨contents, hmapM, _⟩ := mapM_ok (f := read) fun c hc => by
      obtain ⟨q, hleaves⟩ := hleft c hc
      have hq : ¬ s.layout.Unreadable q p.order :=
        fun hq => hblocks ⟨q, c, hleaves, hq, (CellStore.mem_scan.1 hc).2⟩
      obtain ⟨ids, hok⟩ := ((hread hleaves).resolve_left fun h => hq h.1).2
      exact ⟨_, hok⟩
    refine ⟨contents.filter fun c => s.accepts p c.ids, ?_⟩
    rw [find, collect]
    exact (congrArg (· >>= _) hmapM).trans rfl

/-- Every lookup after every run over the statements of a set gives an answer. -/
def AlwaysAnswers (l : Layout) (Q : Set Quad) : Prop :=
  ∀ ops : List StoreOp, (∀ op ∈ ops, op.quad ∈ Q) → ∀ s answers,
    (empty l).run ops = .ok (s, answers) → ∀ p, ∃ found, s.find p = .ok found

/-- The lookup of all statements of the default graph. -/
def defaultPattern (l : Layout) : Pattern := ⟨none, none, none, some l.defaultContext⟩

/-- A statement that is taken for one of the default graph blocks the lookup of the default graph as
soon as it is put in. -/
theorem blocks_insert {q : Quad} (h : l.Storable q) (hq : l.TakenForDefault q) :
    l.Blocks [.insert q] (defaultPattern l) := by
  obtain ⟨e, he, _⟩ := h
  have hcell := Layout.storedCell_of_encodeTerms he .cspo
  have hcontext := Layout.clashes_iff.1 ((Layout.clashes_iff_takenForDefault he).2 hq)
  have hagrees : l.Agrees (defaultPattern l) (l.idsOf e) := by
    intro role id hid
    cases role with
    | context =>
      rw [Layout.filed, StatementIds.get?, hcontext]
      exact Option.some.inj hid
    | subject => cases hid
    | predicate => cases hid
    | object => cases hid
  exact ⟨q, _, .put hcell (List.forall_mem_nil _), ⟨rfl, hq⟩,
    Layout.between_rangeFor (l.sized_idsOf e).filed hagrees⟩

theorem alwaysAnswers_iff {Q : Set Quad} (hQ : ∀ q ∈ Q, l.Storable q) :
    AlwaysAnswers l Q ↔ ∀ q ∈ Q, ¬ l.TakenForDefault q := by
  constructor
  · intro halways q hmem hq
    have hops : ∀ op ∈ [StoreOp.insert q], op.quad ∈ Q := by
      intro op hop
      rw [List.mem_singleton.1 hop]
      exact hmem
    have hstorable : ∀ op ∈ [StoreOp.insert q], l.Storable op.quad :=
      fun op hop => hQ _ (hops op hop)
    obtain ⟨s, answers, hrun, hl, hcells⟩ := run_empty hstorable
    have hnot := (ok_iff_not (find_of_cells hl hstorable hcells (defaultPattern l))).1.1
      (halways _ hops s answers hrun (defaultPattern l))
    exact hnot (blocks_insert (hQ q hmem) hq)
  · intro hnone ops hops s answers hrun p
    have hstorable : ∀ op ∈ ops, l.Storable op.quad := fun op hop => hQ _ (hops op hop)
    obtain ⟨s', answers', hrun', hl, hcells⟩ := run_empty hstorable
    rw [hrun] at hrun'
    cases hrun'
    refine (ok_iff_not (find_of_cells hl hstorable hcells p)).1.2 ?_
    rintro ⟨q, c, hleaves, ⟨_, hq⟩, _⟩
    exact hnone q (hops _ hleaves.mem) hq

/-- What collisions of identifiers do to a store.  Whatever collides, a run leaves the cells that
nothing later in it has reached.  A cell can be read unless its order has the context and its
statement is in a named graph with the identifier of the default graph, and a lookup fails if and
only if there is such a cell in its range.  So all lookups after all runs over a set of statements
give an answer if and only if no statement of the set is in such a graph. -/
theorem find_ok_iff (l : Layout) :
    (∀ ops, (∀ op ∈ ops, l.Storable op.quad) →
      ∃ s answers, (empty l).run ops = .ok (s, answers)
        ∧ (∀ c, c ∈ s.store.cells ↔ ∃ q order, l.Leaves q order c ops)
        ∧ (∀ q order c, l.Leaves q order c ops →
          ((∃ b, l.readCell order c.row c.qualifier c.value = .ok b) ↔ ¬ l.Unreadable q order))
        ∧ ∀ p, ((∃ found, s.find p = .ok found) ↔ ¬ l.Blocks ops p)
          ∧ (s.find p = .error (.context p.order) ↔ l.Blocks ops p))
    ∧ ∀ Q : Set Quad, (∀ q ∈ Q, l.Storable q) →
      (AlwaysAnswers l Q ↔ ∀ q ∈ Q, ¬ l.TakenForDefault q) := by
  refine ⟨fun ops hops => ?_, fun Q hQ => alwaysAnswers_iff hQ⟩
  obtain ⟨s, answers, hrun, hl, hcells⟩ := run_empty hops
  refine ⟨s, answers, hrun, hcells, ?_, fun p => ok_iff_not (find_of_cells hl hops hcells p)⟩
  intro q order c hleaves
  exact Layout.readable_iff (hops _ hleaves.mem) hleaves.storedCell

/-- Identifiers of one byte that tells nothing but the kind of a term. -/
def coarseLayout : Layout :=
  ⟨⟨⟨.sipHash, 1, false, by decide, by decide⟩, .bare⟩, ⟨1, 1, 1, 1⟩, by decide, _, rfl⟩

/-- A statement in a named graph, which a layout of such identifiers takes for the default graph. -/
theorem find_ok_iff_coarse :
    (∃ s answers, (empty coarseLayout).run [.insert (sampleQuad (some (.iri "urn:g")))]
        = .ok (s, answers)
      ∧ s.find (defaultPattern coarseLayout) = .error (.context .cspo)
      ∧ ∃ found, s.find .open_ = .ok found)
    ∧ AlwaysAnswers coarseLayout {sampleQuad none} := by
  obtain ⟨hruns, hsets⟩ := find_ok_iff coarseLayout
  have hnamed : coarseLayout.Storable (sampleQuad (some (.iri "urn:g"))) :=
    readable_of_toOption (by decide +kernel)
  have hdefault : coarseLayout.Storable (sampleQuad none) :=
    readable_of_toOption (by decide +kernel)
  have htaken : coarseLayout.TakenForDefault (sampleQuad (some (.iri "urn:g"))) :=
    ⟨.iri "urn:g", rfl, by decide, by decide +kernel⟩
  constructor
  · obtain ⟨s, answers, hrun, _, _, hfind⟩ := hruns [.insert (sampleQuad (some (.iri "urn:g")))]
      (List.forall_mem_singleton.2 hnamed)
    refine ⟨s, answers, hrun, (hfind _).2.2 (blocks_insert hnamed htaken), (hfind _).1.2 ?_⟩
    rintro ⟨_, _, _, ⟨hcontext, _⟩, _⟩
    cases hcontext
  · refine (hsets {sampleQuad none} ?_).2 ?_
    · rintro q rfl
      exact hdefault
    · rintro q rfl ⟨g, hg, _⟩
      cases hg

end QuadStore

end RdfIndex
