import RdfIndex.Proofs.Statement.Range
import RdfIndex.Proofs.Store.Refinement

/-!
# Lookups are exact

A lookup reads a range of rows of one order and keeps the cells whose identifiers agree with its
pattern.  The range holds the cells of all statements that agree with the pattern and other cells of
the same order (`mem_scan_of_agrees`, `storedCell_of_mem_scan`), so that each statement is met once.
Where identifiers tell terms apart, a statement agrees with the pattern if and only if its terms are
those of the lookup (`agrees_iff`).
-/

namespace RdfIndex

/-! ## What is looked up -/

/-- The term under which the graphs of a selector are filed, if it selects by one. -/
def GraphSelector.name? : GraphSelector → Option Term
  | any => none
  | default => some defaultGraph
  | named g => some g

/-- The graph of a statement is among those of a selector.  The default graph has a name as well. -/
def GraphSelector.Covers : GraphSelector → Option Term → Prop
  | any, _ => True
  | default, context => context = none
  | named g, context => if g = defaultGraph then context = none else context = some g

/-- The statement has the given terms and is in one of the given graphs. -/
def Quad.Matches (q : Quad) (subject predicate object : Option Term) (graph : GraphSelector) :
    Prop :=
  (∀ t ∈ subject, q.subject = t) ∧ (∀ t ∈ predicate, q.predicate = t)
    ∧ (∀ t ∈ object, q.object = t) ∧ graph.Covers q.context

/-- The terms of a lookup. -/
def lookupTerms (subject predicate object : Option Term) (graph : GraphSelector) : List Term :=
  subject.toList ++ predicate.toList ++ object.toList ++ graph.name?.toList

/-- The term under which a statement is filed in a role. -/
def Quad.filedTerm (q : Quad) : Role → Term
  | .subject => q.subject
  | .predicate => q.predicate
  | .object => q.object
  | .context => q.context.getD defaultGraph

/-- The term to which a lookup binds a role. -/
def boundTerm (subject predicate object : Option Term) (graph : GraphSelector) :
    Role → Option Term
  | .subject => subject
  | .predicate => predicate
  | .object => object
  | .context => graph.name?

theorem covers_iff {graph : GraphSelector} {q : Quad} (hq : q.context ≠ some defaultGraph) :
    graph.Covers q.context ↔ ∀ t ∈ graph.name?, q.filedTerm .context = t := by
  have hdefault : q.context = none ↔ q.context.getD defaultGraph = defaultGraph := by
    cases hcontext : q.context with
    | none => simp
    | some g => simpa [hcontext] using hq
  cases graph with
  | any => simp [GraphSelector.Covers, GraphSelector.name?]
  | default => simpa [GraphSelector.Covers, GraphSelector.name?, Quad.filedTerm] using hdefault
  | named g =>
    simp only [GraphSelector.Covers, GraphSelector.name?, Quad.filedTerm, Option.mem_some_iff,
      forall_eq']
    by_cases hg : g = defaultGraph
    · rw [if_pos hg, hg, hdefault]
    · rw [if_neg hg]
      cases hcontext : q.context with
      | none => simpa using Ne.symm hg
      | some g' => simp

/-- A lookup asks of every role that it binds that it is filed under the term. -/
theorem matches_iff {subject predicate object : Option Term} {graph : GraphSelector} {q : Quad}
    (hq : q.context ≠ some defaultGraph) : q.Matches subject predicate object graph
      ↔ ∀ role, ∀ t ∈ boundTerm subject predicate object graph role, q.filedTerm role = t := by
  rw [Quad.Matches, covers_iff hq]
  constructor
  · rintro ⟨hs, hp, ho, hg⟩ role
    cases role with
    | subject => exact hs
    | predicate => exact hp
    | object => exact ho
    | context => exact hg
  · intro h
    exact ⟨h .subject, h .predicate, h .object, h .context⟩

theorem boundTerm_mem {subject predicate object : Option Term} {graph : GraphSelector} (role : Role)
    {t : Term} (h : t ∈ boundTerm subject predicate object graph role) :
    t ∈ lookupTerms subject predicate object graph := by
  simp only [lookupTerms, List.mem_append, Option.mem_toList]
  cases role with
  | subject => exact .inl (.inl (.inl h))
  | predicate => exact .inl (.inl (.inr h))
  | object => exact .inl (.inr h)
  | context => exact .inr h

/-! ## Patterns -/

namespace Layout

variable {l : Layout} {ts : List Term} {q : Quad} {e : EncodedQuad} {p : Pattern}

/-- A pattern binds a role to the identifier of a term, or leaves it open. -/
def BindsTo (l : Layout) (bound : Option Identifier) (t : Option Term) : Prop :=
  (t = none ∧ bound = none) ∨ ∃ u id, t = some u ∧ l.factory.id u = .ok id ∧ bound = some id

/-- The identifier under which a statement is filed in a role is that of the term. -/
theorem id_filedTerm (h : l.EncodesTo q e) (role : Role) :
    l.factory.id (q.filedTerm role) = .ok (l.filed (l.idsOf e) role) := by
  cases role with
  | subject => exact IdFactory.id_of_encode h.subject
  | predicate => exact IdFactory.id_of_encode h.predicate
  | object => exact IdFactory.id_of_encode h.object
  | context =>
    rcases h.context with ⟨hq, he⟩ | ⟨g, c, hq, hencode, he⟩
    · rw [Quad.filedTerm, hq, filed, StatementIds.get?, idsOf, he]
      exact IdFactory.id_defaultGraph l
    · rw [Quad.filedTerm, hq, filed, StatementIds.get?, idsOf, he]
      exact IdFactory.id_of_encode hencode

/-- Where identifiers tell terms apart, identifiers agree if and only if the terms do. -/
theorem agrees_iff (hsep : l.factory.Separates ts) (h : l.EncodesTo q e)
    {bound : Role → Option Term} (hbinds : ∀ role, l.BindsTo (p.get? role) (bound role))
    (hfiled : ∀ role, q.filedTerm role ∈ ts) (hbound : ∀ role, ∀ t ∈ bound role, t ∈ ts) :
    l.Agrees p (l.idsOf e) ↔ ∀ role, ∀ t ∈ bound role, q.filedTerm role = t := by
  refine forall_congr' fun role => ?_
  have hid := id_filedTerm h role
  rcases hbinds role with ⟨hnone, hp⟩ | ⟨u, id, hsome, hu, hp⟩
  · rw [hnone, hp]
    exact ⟨fun _ _ ht => (nomatch ht), fun _ _ ht => (nomatch ht)⟩
  · have hmem : u ∈ ts := hbound role u hsome
    rw [hsome, hp]
    constructor
    · intro hagrees t ht
      cases ht
      rw [hagrees id rfl] at hid
      exact hsep _ (hfiled role) u hmem id hid hu
    · intro hterm id' hid'
      cases hid'
      rw [hterm u rfl, hu] at hid
      exact (Except.ok.inj hid).symm

end Layout

namespace QuadStore

variable {s : QuadStore} {p : Pattern}

/-- A pattern is made of the identifiers of the terms of a lookup. -/
theorem pattern_ok {subject predicate object : Option Term} {graph : GraphSelector}
    (h : ∀ t ∈ lookupTerms subject predicate object graph, ∃ id, s.layout.factory.id t = .ok id) :
    ∃ p, s.pattern subject predicate object graph = .ok p
      ∧ ∀ role, s.layout.BindsTo (p.get? role) (boundTerm subject predicate object graph role) := by
  have hterm : ∀ t : Option Term, (∀ u ∈ t, ∃ id, s.layout.factory.id u = .ok id) →
      ∃ bound, t.mapM s.layout.factory.id = .ok bound ∧ s.layout.BindsTo bound t := by
    intro t ht
    cases t with
    | none => exact ⟨none, rfl, .inl ⟨rfl, rfl⟩⟩
    | some u =>
      obtain ⟨id, hid⟩ := ht u rfl
      refine ⟨some id, ?_, .inr ⟨u, id, rfl, hid, rfl⟩⟩
      rw [Option.mapM_some, hid]
      rfl
  have hcontext : ∃ bound, s.contextFor graph = .ok bound ∧ s.layout.BindsTo bound graph.name? := by
    cases graph with
    | any => exact ⟨none, rfl, .inl ⟨rfl, rfl⟩⟩
    | default =>
      exact ⟨_, rfl, .inr ⟨defaultGraph, _, rfl, IdFactory.id_defaultGraph s.layout, rfl⟩⟩
    | named g =>
      obtain ⟨id, hid⟩ := h g (boundTerm_mem .context rfl)
      refine ⟨some id, ?_, .inr ⟨g, id, rfl, hid, rfl⟩⟩
      rw [contextFor, hid]
      rfl
  obtain ⟨is, his, hs⟩ := hterm subject fun u hu => h u (boundTerm_mem .subject hu)
  obtain ⟨ip, hip, hp⟩ := hterm predicate fun u hu => h u (boundTerm_mem .predicate hu)
  obtain ⟨io, hio, ho⟩ := hterm object fun u hu => h u (boundTerm_mem .object hu)
  obtain ⟨ic, hic, hc⟩ := hcontext
  refine ⟨⟨is, ip, io, ic⟩, ?_, ?_⟩
  · rw [pattern, his, hip, hio, hic]
    rfl
  · intro role
    cases role with
    | subject => exact hs
    | predicate => exact hp
    | object => exact ho
    | context => exact hc

/-- Identifiers are accepted if the statement is filed under what the pattern binds. -/
theorem accepts_iff {ids : StatementIds} : s.accepts p ids = true ↔ s.layout.Agrees p ids := by
  simp only [accepts, Pattern.covers, Pattern.agrees, Bool.and_eq_true, Option.all_eq_true,
    beq_iff_eq, Option.some.injEq]
  constructor
  · rintro ⟨⟨⟨hs, hp⟩, ho⟩, hc⟩ role
    cases role with
    | subject => exact hs
    | predicate => exact hp
    | object => exact ho
    | context => exact hc
  · intro h
    exact ⟨⟨⟨h .subject, h .predicate⟩, h .object⟩, h .context⟩

/-! ## Cells of a range -/

variable {l : Layout} {ts : List Term} {A : Finset Quad} {q : Quad} {e : EncodedQuad}

/-- A cell that stands in a range of an order is the cell of a statement in that order. -/
theorem storedCell_of_mem_scan (hstore : l.HoldsCells s.store A) {c : StoredCell} {order : Order}
    (hc : c ∈ s.store.scan (l.rangeFor order p).start (l.rangeFor order p).stop) :
    ∃ q ∈ A, ∃ e, l.encodeTerms q = .ok e ∧ c = (l.cellIn (l.idsOf e) e order).stored := by
  obtain ⟨hmem, hlow, hhigh⟩ := CellStore.mem_scan.1 hc
  obtain ⟨q, hq, order', hcell⟩ := (hstore c).1 hmem
  obtain ⟨e, he, rfl⟩ := ok_of_map hcell
  have horder := Layout.orderByte_inj (Layout.order_of_between hlow hhigh)
  exact ⟨q, hq, e, he, by rw [horder]⟩

/-- The cell of a statement that agrees with a pattern stands in the range of the pattern. -/
theorem mem_scan_of_agrees (hstore : l.HoldsCells s.store A) (hq : q ∈ A)
    (he : l.encodeTerms q = .ok e) (hagrees : l.Agrees p (l.idsOf e)) (order : Order) :
    (l.cellIn (l.idsOf e) e order).stored
      ∈ s.store.scan (l.rangeFor order p).start (l.rangeFor order p).stop := by
  refine CellStore.mem_scan.2 ⟨?_, ?_⟩
  · exact (hstore _).2 ⟨q, hq, order, Layout.storedCell_of_encodeTerms he order⟩
  · exact Layout.between_rangeFor (l.sized_idsOf e).filed hagrees

/-- The values of the statements of a set can be read. -/
def AllReadable (l : Layout) (A : Finset Quad) : Prop :=
  ∀ q ∈ A, ∀ e, l.encodeTerms q = .ok e → e.valueBytes.length < positionLimit

/-- A cell of a statement of the set is read as the statement. -/
theorem readCell_of_mem (h : l.Tells ts) (hA : l.AllAdmitted ts A) (hread : AllReadable l A)
    (hq : q ∈ A) (he : l.encodeTerms q = .ok e) (order : Order) :
    l.readCell order (l.row order (l.idsOf e)) (l.qualifier order (l.idsOf e)) e.valueBytes
      = .ok ⟨l.idsOf e, q⟩ := by
  obtain ⟨hnormal, hadmits⟩ := hA q hq
  have hencodes := Layout.encodesTo_of_encodeTerms he
  rw [hnormal] at hencodes
  have hclash := Layout.not_clashes h.separates h.default_mem hadmits.terms hencodes
    (hnormal ▸ q.context_normalize_ne)
  rw [Layout.readCell_cellIn hencodes (hread q hq e he), hclash, Bool.and_false]
  rfl

/-! ## What is found -/

/-- What a cell of a range holds: a statement of the set with its identifiers. -/
def HoldsContent (l : Layout) (A : Finset Quad) (b : CellContent) (e : EncodedQuad) : Prop :=
  b.quad ∈ A ∧ l.encodeTerms b.quad = .ok e ∧ b.ids = l.idsOf e

/-- All cells of a range are read, each as a statement of the set in the order of the range. -/
theorem readCell_of_mem_scan (h : l.Tells ts) (hA : l.AllAdmitted ts A) (hread : AllReadable l A)
    (hstore : l.HoldsCells s.store A) {c : StoredCell} {order : Order}
    (hc : c ∈ s.store.scan (l.rangeFor order p).start (l.rangeFor order p).stop) :
    ∃ b e, HoldsContent l A b e ∧ c = (l.cellIn b.ids e order).stored
      ∧ l.readCell order c.row c.qualifier c.value = .ok b := by
  obtain ⟨q, hq, e, he, rfl⟩ := storedCell_of_mem_scan hstore hc
  exact ⟨⟨l.idsOf e, q⟩, e, ⟨hq, he, rfl⟩, rfl, readCell_of_mem h hA hread hq he order⟩

theorem HoldsContent.eq_of_quad_eq {b b' : CellContent} {e e' : EncodedQuad}
    (h : HoldsContent l A b e) (h' : HoldsContent l A b' e') (hquad : b.quad = b'.quad) :
    b = b' ∧ e = e' := by
  obtain ⟨_, he, hids⟩ := h
  obtain ⟨_, he', hids'⟩ := h'
  rw [hquad, he'] at he
  cases he
  cases b
  cases b'
  cases hquad
  cases hids
  cases hids'
  exact ⟨rfl, rfl⟩

/-- The contents of the cells of a range, each met once. -/
theorem contents_of_scan (h : l.Tells ts) (hA : l.AllAdmitted ts A) (hread : AllReadable l A)
    (hstore : l.HoldsCells s.store A) (order : Order) (p : Pattern) :
    ∃ contents, ((s.store.scan (l.rangeFor order p).start (l.rangeFor order p).stop).mapM fun c =>
        l.readCell order c.row c.qualifier c.value) = .ok contents
      ∧ contents.Nodup
      ∧ (∀ b ∈ contents, ∃ e, HoldsContent l A b e)
      ∧ ∀ b e, HoldsContent l A b e → l.Agrees p b.ids → b ∈ contents := by
  obtain ⟨contents, hcontents, hmap⟩ := mapM_ok fun c hc => by
    obtain ⟨b, _, _, _, hcell⟩ := readCell_of_mem_scan h hA hread hstore hc
    exact ⟨b, hcell⟩
  have hmem : ∀ b, b ∈ contents ↔ Except.ok (ε := DecodeError) b ∈ contents.map .ok := by
    intro b
    exact (List.mem_map_of_injective fun _ _ => Except.ok.inj).symm
  refine ⟨contents, hcontents, ?_, ?_, ?_⟩
  · refine List.Nodup.of_map (.ok : CellContent → Except DecodeError CellContent) ?_
    rw [← hmap]
    refine List.Nodup.map_on ?_ (s.store.nodup_cells.filter _)
    intro c hc c' hc' heq
    obtain ⟨b, e, hb, rfl, hcell⟩ := readCell_of_mem_scan h hA hread hstore hc
    obtain ⟨b', e', hb', rfl, hcell'⟩ := readCell_of_mem_scan h hA hread hstore hc'
    have hsame : b = b' := Except.ok.inj (hcell.symm.trans (heq.trans hcell'))
    obtain ⟨rfl, rfl⟩ := hb.eq_of_quad_eq hb' (congrArg CellContent.quad hsame)
    rfl
  · intro b hb
    rw [hmem, ← hmap] at hb
    obtain ⟨c, hc, hcell⟩ := List.mem_map.1 hb
    obtain ⟨b', e, hb', _, hcell'⟩ := readCell_of_mem_scan h hA hread hstore hc
    rw [hcell'] at hcell
    cases hcell
    exact ⟨e, hb'⟩
  · intro b e hb hagrees
    obtain ⟨hq, he, hids⟩ := hb
    rw [hmem, ← hmap]
    rw [hids] at hagrees
    refine List.mem_map.2 ⟨_, mem_scan_of_agrees hstore hq he hagrees order, ?_⟩
    rw [show b = ⟨l.idsOf e, b.quad⟩ by rw [← hids]]
    exact readCell_of_mem h hA hread hq he order

/-- The cells that answer a pattern are those of the statements of the set that agree with it, each
met once. -/
theorem find_ok (h : s.layout.Tells ts) (hA : s.layout.AllAdmitted ts A)
    (hread : AllReadable s.layout A) (hstore : s.layout.HoldsCells s.store A) (p : Pattern) :
    ∃ found, s.find p = .ok found ∧ (found.map CellContent.quad).Nodup
      ∧ ∀ q, q ∈ found.map CellContent.quad
        ↔ q ∈ A ∧ ∃ e, s.layout.encodeTerms q = .ok e ∧ s.layout.Agrees p (s.layout.idsOf e) := by
  obtain ⟨contents, hcontents, hnodup, hholds, hagreeing⟩ :=
    contents_of_scan h hA hread hstore p.order p
  have hfind : s.find p = .ok (contents.filter fun c => s.accepts p c.ids) := by
    rw [find, collect, Layout.scan]
    exact (congrArg (· >>= _) hcontents).trans rfl
  refine ⟨_, hfind, ?_, ?_⟩
  · refine List.Nodup.map_on ?_ (hnodup.filter _)
    intro b hb b' hb' hquad
    obtain ⟨e, hcontent⟩ := hholds b (List.mem_of_mem_filter hb)
    obtain ⟨e', hcontent'⟩ := hholds b' (List.mem_of_mem_filter hb')
    exact (hcontent.eq_of_quad_eq hcontent' hquad).1
  · intro q
    constructor
    · intro hq
      obtain ⟨b, hb, rfl⟩ := List.mem_map.1 hq
      obtain ⟨hmem, haccepts⟩ := List.mem_filter.1 hb
      obtain ⟨e, hq, he, hids⟩ := hholds b hmem
      exact ⟨hq, e, he, hids ▸ accepts_iff.1 haccepts⟩
    · rintro ⟨hq, e, he, hagrees⟩
      have hmem := hagreeing ⟨s.layout.idsOf e, q⟩ e ⟨hq, he, rfl⟩ hagrees
      exact List.mem_map.2 ⟨_, List.mem_filter.2 ⟨hmem, accepts_iff.2 hagrees⟩, rfl⟩

/-! ## Lookups after a run -/

/-- A lookup of some terms after a run: the values of the run can be read, the terms have
identifiers, and these tell them apart from each other and from the terms of the run. -/
structure IsLookup (l : Layout) (ops : List StoreOp) (ts : List Term) : Prop where
  readable : ∀ op ∈ ops, ∃ e, l.encodeTerms op.quad = .ok e ∧ e.valueBytes.length < positionLimit
  named : ∀ t ∈ ts, ∃ id, l.factory.id t = .ok id
  separates : l.factory.Separates (opTerms ops ++ ts)

variable {ops : List StoreOp}

theorem IsLookup.of_subset {ts' : List Term} (h : IsLookup l ops ts)
    (hts : ∀ t ∈ ts', t = defaultGraph ∨ t ∈ ts) : IsLookup l ops ts' := by
  have hmem : ∀ t ∈ opTerms ops ++ ts', t ∈ opTerms ops ++ ts := by
    intro t ht
    rw [List.mem_append] at ht ⊢
    rcases ht with ht | ht
    · exact .inl ht
    rcases hts t ht with rfl | ht
    · exact .inl List.mem_cons_self
    · exact .inr ht
  refine ⟨h.readable, fun t ht => ?_, fun t ht u hu => h.separates t (hmem t ht) u (hmem u hu)⟩
  rcases hts t ht with rfl | ht
  · exact ⟨_, IdFactory.id_defaultGraph l⟩
  · exact h.named t ht

theorem IsLookup.tells (h : IsLookup l ops ts) : l.Tells (opTerms ops ++ ts) :=
  ⟨h.separates, List.mem_append_left _ List.mem_cons_self⟩

theorem IsLookup.admits (h : IsLookup l ops ts) :
    ∀ op ∈ ops, l.Admits (opTerms ops ++ ts) op.quad := by
  intro op hop
  obtain ⟨e, he, _⟩ := h.readable op hop
  exact ⟨⟨e, he⟩, fun t ht => List.mem_append_left _ (mem_opTerms hop ht)⟩

/-- A set that comes of a run holds nothing but normalized statements of the run. -/
theorem mem_runSet {q : Quad} : ∀ {ops : List StoreOp} {A : Finset Quad}, q ∈ (runSet A ops).1 →
    q ∈ A ∨ ∃ op ∈ ops, op.quad.normalize = q := by
  intro ops
  induction ops with
  | nil => exact fun h => .inl h
  | cons op ops ih =>
    intro A h
    have hlater : ∀ {B : Finset Quad}, q ∈ (runSet B ops).1 →
        (q ∈ B → q ∈ A ∨ op.quad.normalize = q) →
        q ∈ A ∨ ∃ op' ∈ op :: ops, op'.quad.normalize = q := by
      intro B hB himp
      rcases ih hB with hB | ⟨op', hop', heq⟩
      · exact (himp hB).imp_right fun heq => ⟨op, List.mem_cons_self, heq⟩
      · exact .inr ⟨op', List.mem_cons_of_mem op hop', heq⟩
    cases op with
    | insert q' => exact hlater h fun hB => (Finset.mem_insert.1 hB).symm.imp_right Eq.symm
    | remove q' => exact hlater h fun hB => .inl (Finset.mem_of_mem_erase hB)

theorem IsLookup.readable_runSet (h : IsLookup l ops ts) : AllReadable l (runSet ∅ ops).1 := by
  intro q hq e he
  rcases mem_runSet hq with hq | ⟨op, hop, rfl⟩
  · exact absurd hq (Finset.notMem_empty q)
  · obtain ⟨e', he', hlimit⟩ := h.readable op hop
    rw [l.encodeTerms_normalize, he'] at he
    cases he
    exact hlimit

/-- A lookup finds the statements of the set that match it, each of them once. -/
theorem IsLookup.findQuads {s : QuadStore} {answers : List Bool}
    {subject predicate object : Option Term} {graph : GraphSelector}
    (h : IsLookup l ops (lookupTerms subject predicate object graph))
    (hrun : (empty l).run ops = .ok (s, answers)) :
    ∃ found, s.findQuads subject predicate object graph = .ok found ∧ found.Nodup
      ∧ ∀ q, q ∈ found
        ↔ q ∈ (runSet ∅ ops).1 ∧ q.Matches subject predicate object graph := by
  obtain ⟨s', hrun', hl, hA, hstore⟩ := run_holdsCells h.tells ops (s := empty l) rfl
    (allAdmitted_empty l _) (holdsCells_empty l) h.admits
  rw [hrun] at hrun'
  cases hrun'
  subst hl
  obtain ⟨p, hp, hbinds⟩ := pattern_ok h.named
  obtain ⟨found, hfound, hnodup, hmem⟩ := find_ok h.tells hA h.readable_runSet hstore p
  refine ⟨found.map CellContent.quad, ?_, hnodup, fun q => ?_⟩
  · rw [QuadStore.findQuads, hp]
    show (do let found ← s.find p; return found.map CellContent.quad : Except Error _) = _
    rw [hfound]
    rfl
  · rw [hmem q]
    refine and_congr_right fun hq => ?_
    obtain ⟨hnormal, hadmits⟩ := hA q hq
    obtain ⟨e, he⟩ := hadmits.encodes
    have hencodes := Layout.encodesTo_of_encodeTerms he
    rw [hnormal] at hencodes
    have hfiled : ∀ role, q.filedTerm role
        ∈ opTerms ops ++ lookupTerms subject predicate object graph := by
      intro role
      cases role with
      | subject => exact hadmits.terms _ (by simp [Quad.terms, Quad.filedTerm])
      | predicate => exact hadmits.terms _ (by simp [Quad.terms, Quad.filedTerm])
      | object => exact hadmits.terms _ (by simp [Quad.terms, Quad.filedTerm])
      | context =>
        cases hcontext : q.context with
        | none =>
          rw [Quad.filedTerm, hcontext]
          exact h.tells.default_mem
        | some g =>
          rw [Quad.filedTerm, hcontext]
          exact hadmits.terms g (by simp [Quad.terms, hcontext])
    rw [matches_iff (hnormal ▸ q.context_normalize_ne),
      ← Layout.agrees_iff h.separates hencodes hbinds hfiled
        fun role t ht => List.mem_append_right _ (boundTerm_mem role ht)]
    constructor
    · rintro ⟨e', he', hagrees⟩
      rw [he] at he'
      cases he'
      exact hagrees
    · exact fun hagrees => ⟨e, he, hagrees⟩

/-- The selector of the graph of a statement. -/
def graphOf (q : Quad) : GraphSelector :=
  match q.context with
  | some g => .named g
  | none => .default

/-- The one normalized statement that matches all terms of a statement is its normal form. -/
theorem matches_graphOf_iff {q q' : Quad} :
    q'.Matches (some q.subject) (some q.predicate) (some q.object) (graphOf q)
      ↔ q' = q.normalize := by
  have hgraph : (graphOf q).Covers q'.context ↔ q'.context = q.normalize.context := by
    rw [graphOf, Quad.normalize, ← defaultGraph]
    cases hcontext : q.context with
    | none => simp [GraphSelector.Covers, hcontext]
    | some g =>
      simp only [GraphSelector.Covers, Option.some.injEq]
      by_cases hg : g = defaultGraph
      · rw [if_pos hg, if_pos hg]
      · rw [if_neg hg, if_neg hg, hcontext]
  rw [Quad.Matches, hgraph]
  simp only [Option.mem_some_iff, forall_eq']
  constructor
  · rintro ⟨hs, hp, ho, hg⟩
    exact Quad.eq_of_members (hs.trans q.subject_normalize.symm)
      (hp.trans q.predicate_normalize.symm) (ho.trans q.object_normalize.symm) hg
  · rintro rfl
    exact ⟨q.subject_normalize, q.predicate_normalize, q.object_normalize, rfl⟩

/-- A statement is contained if and only if its normal form is in the set. -/
theorem IsLookup.contains {s : QuadStore} {answers : List Bool} {q : Quad}
    (h : IsLookup l ops q.terms) (hrun : (empty l).run ops = .ok (s, answers)) :
    s.contains q = .ok (decide (q.normalize ∈ (runSet ∅ ops).1)) := by
  have hlookup : IsLookup l ops
      (lookupTerms (some q.subject) (some q.predicate) (some q.object) (graphOf q)) := by
    refine h.of_subset fun t ht => ?_
    rw [graphOf] at ht
    cases hcontext : q.context with
    | none =>
      simp only [hcontext, lookupTerms, GraphSelector.name?, Option.toList_some, List.mem_append,
        List.mem_singleton] at ht
      simp only [Quad.terms, List.mem_cons]
      tauto
    | some g =>
      simp only [hcontext, lookupTerms, GraphSelector.name?, Option.toList_some, List.mem_append,
        List.mem_singleton] at ht
      simp only [Quad.terms, hcontext, Option.toList_some, List.mem_cons]
      tauto
  obtain ⟨found, hfound, _, hmem⟩ := hlookup.findQuads hrun
  have hcontains : s.contains q = .ok (!found.isEmpty) := by
    rw [QuadStore.contains]
    exact (congrArg (· >>= _) hfound).trans rfl
  rw [hcontains]
  refine congrArg Except.ok ?_
  rw [Bool.eq_iff_iff, Bool.not_eq_true', List.isEmpty_eq_false_iff_exists_mem, decide_eq_true_eq]
  constructor
  · rintro ⟨q', hq'⟩
    obtain ⟨hA, hmatches⟩ := (hmem q').1 hq'
    exact matches_graphOf_iff.1 hmatches ▸ hA
  · intro hA
    exact ⟨q.normalize, (hmem _).2 ⟨hA, matches_graphOf_iff.2 rfl⟩⟩

/-- Lookups are exact.  After every run and for every layout, a lookup succeeds and finds exactly
the statements that the run has left and that match it, each of them once, and a statement is
contained if and only if the run has left its normal form. -/
theorem findQuads_exact (l : Layout) (ops : List StoreOp) (s : QuadStore) (answers : List Bool)
    (hrun : (empty l).run ops = .ok (s, answers)) :
    (∀ subject predicate object graph,
      IsLookup l ops (lookupTerms subject predicate object graph) →
      ∃ found, s.findQuads subject predicate object graph = .ok found ∧ found.Nodup
        ∧ ∀ q, q ∈ found
          ↔ q ∈ (runSet ∅ ops).1 ∧ q.Matches subject predicate object graph)
    ∧ ∀ q, IsLookup l ops q.terms →
      s.contains q = .ok (decide (q.normalize ∈ (runSet ∅ ops).1)) :=
  ⟨fun _ _ _ _ h => h.findQuads hrun, fun _ h => h.contains hrun⟩

theorem isLookup_of_toOption
    (hreadable : ∀ op ∈ ops, (l.encodeTerms op.quad).toOption.any
      (fun e => decide (e.valueBytes.length < positionLimit)) = true)
    (hnamed : ∀ t ∈ ts, (l.factory.id t).toOption.isSome = true)
    (hsep : ∀ t ∈ opTerms ops ++ ts, ∀ u ∈ opTerms ops ++ ts,
      (l.factory.id t).toOption = (l.factory.id u).toOption → t = u) : IsLookup l ops ts :=
  ⟨fun op hop => readable_of_toOption (hreadable op hop),
    fun t ht => ok_of_isSome (hnamed t ht), separates_of_toOption hsep⟩

theorem findQuads_exact_sampleOps :
    ∃ s answers found, (empty sampleLayout).run sampleOps = .ok (s, answers)
      ∧ s.findQuads (some (.iri "urn:s")) none none .any = .ok found ∧ found.Nodup
      ∧ (∀ q, q ∈ found ↔ q = sampleQuad (some (.iri "urn:g")))
      ∧ s.contains (sampleQuad none) = .ok false := by
  obtain ⟨s, hrun, _⟩ := isRun_sampleOps.holdsCells List.prefix_rfl
  obtain ⟨hfind, hcontains⟩ := findQuads_exact sampleLayout sampleOps s _ hrun
  have hset : (runSet ∅ sampleOps).1 = {sampleQuad (some (.iri "urn:g"))} := by decide
  have hlookup : IsLookup sampleLayout sampleOps
      (lookupTerms (some (.iri "urn:s")) none none .any) :=
    isLookup_of_toOption (by decide +kernel) (by decide +kernel) (by decide +kernel)
  have hcontained : IsLookup sampleLayout sampleOps (sampleQuad none).terms :=
    isLookup_of_toOption (by decide +kernel) (by decide +kernel) (by decide +kernel)
  obtain ⟨found, hfound, hnodup, hmem⟩ := hfind _ _ _ _ hlookup
  refine ⟨s, _, found, hrun, hfound, hnodup, fun q => ?_, ?_⟩
  · rw [hmem q, hset, Finset.mem_singleton]
    constructor
    · exact And.left
    · rintro rfl
      exact ⟨rfl, by simp [Quad.Matches, sampleQuad, GraphSelector.Covers]⟩
  · rw [hcontains _ hcontained]
    decide

end QuadStore

end RdfIndex
