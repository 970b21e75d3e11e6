import RdfIndex.Proofs.Statement.Cell

/-!
# Statements told apart by their identifiers

Where the identifiers of some terms are all different (`IdFactory.Separates`), and that of the IRI
of the default context is among them, statements of these terms are told apart by their identifiers
and by the place of any one of their cells (`Layout.eq_of_place`).  A statement that is normalized
is not in the named graph of the default context, so that it is never taken for one of the default
graph.
-/

namespace RdfIndex

/-- The name of the default graph. -/
def defaultGraph : Term := .iri Internal.defaultContext

/-- The terms of a statement. -/
def Quad.terms (q : Quad) : List Term := q.subject :: q.predicate :: q.object :: q.context.toList

/-- Terms with the same identifier are the same. -/
def IdFactory.Separates (f : IdFactory) (ts : List Term) : Prop :=
  ∀ t ∈ ts, ∀ u ∈ ts, ∀ id, f.id t = .ok id → f.id u = .ok id → t = u

theorem IdFactory.id_of_encode {f : IdFactory} {t : Term} {e : Encoded}
    (h : f.codec.encode t = .ok e) : f.id t = .ok (f.derive e) := by
  rw [IdFactory.id, h]
  rfl

theorem IdFactory.id_defaultGraph (l : Layout) :
    l.factory.id defaultGraph = .ok l.defaultContext := by
  rw [l.defaultContext_eq]
  rfl

/-! ## Normalized statements -/

namespace Quad

variable {q q' : Quad}

theorem eq_of_members (hs : q.subject = q'.subject) (hp : q.predicate = q'.predicate)
    (ho : q.object = q'.object) (hc : q.context = q'.context) : q = q' := by
  cases q
  cases q'
  cases hs
  cases hp
  cases ho
  cases hc
  rfl

theorem normalize_of_ne (h : q.context ≠ some defaultGraph) : q.normalize = q := if_neg h

theorem context_normalize_eq_some {g : Term} :
    q.normalize.context = some g ↔ q.context = some g ∧ g ≠ defaultGraph := by
  by_cases hq : q.context = some defaultGraph
  · have hnone : q.normalize.context = none := congrArg Quad.context (if_pos hq)
    rw [hnone, hq]
    constructor
    · intro h
      cases h
    · rintro ⟨h, hne⟩
      exact absurd (Option.some.inj h).symm hne
  · rw [normalize_of_ne hq]
    exact ⟨fun h => ⟨h, fun heq => hq (heq ▸ h)⟩, And.left⟩

theorem context_normalize_ne (q : Quad) : q.normalize.context ≠ some defaultGraph :=
  fun h => (context_normalize_eq_some.1 h).2 rfl

@[simp] theorem subject_normalize (q : Quad) : q.normalize.subject = q.subject := by
  rw [normalize]
  split <;> rfl

@[simp] theorem predicate_normalize (q : Quad) : q.normalize.predicate = q.predicate := by
  rw [normalize]
  split <;> rfl

@[simp] theorem object_normalize (q : Quad) : q.normalize.object = q.object := by
  rw [normalize]
  split <;> rfl

@[simp] theorem normalize_normalize (q : Quad) : q.normalize.normalize = q.normalize :=
  normalize_of_ne q.context_normalize_ne

theorem mem_terms_of_normalize {t : Term} (h : t ∈ q.normalize.terms) : t ∈ q.terms := by
  by_cases hq : q.context = some defaultGraph
  · have hnormal : q.normalize = { q with context := none } := if_pos hq
    rw [hnormal] at h
    simp only [terms, Option.toList_none, List.mem_cons, List.not_mem_nil, or_false] at h ⊢
    rcases h with h | h | h
    · exact .inl h
    · exact .inr (.inl h)
    · exact .inr (.inr (.inl h))
  · rwa [normalize_of_ne hq] at h

end Quad

namespace Layout

theorem encodeTerms_normalize (l : Layout) (q : Quad) :
    l.encodeTerms q.normalize = l.encodeTerms q := by
  rw [encodeTerms, encodeTerms, Quad.normalize_normalize]

variable {l : Layout} {ts : List Term} {q q' : Quad} {e e' : EncodedQuad}

/-! ## Identifiers and terms -/

/-- Terms that were encoded to values with the same identifier are the same. -/
theorem eq_of_derive_eq (hsep : l.factory.Separates ts) {t t' : Term} {m m' : Encoded}
    (ht : t ∈ ts) (ht' : t' ∈ ts) (h : l.factory.codec.encode t = .ok m)
    (h' : l.factory.codec.encode t' = .ok m') (heq : l.factory.derive m = l.factory.derive m') :
    t = t' :=
  hsep t ht t' ht' _ (IdFactory.id_of_encode h) (heq ▸ IdFactory.id_of_encode h')

/-- A named graph that is not the default context does not have its identifier. -/
theorem not_clashes (hsep : l.factory.Separates ts) (hdefault : defaultGraph ∈ ts)
    (hq : ∀ t ∈ q.terms, t ∈ ts) (h : l.EncodesTo q e) (hne : q.context ≠ some defaultGraph) :
    l.clashes (l.idsOf e) = false := by
  rw [Bool.eq_false_iff]
  intro hclash
  rw [clashes_iff, idsOf] at hclash
  rcases h.context with ⟨_, he⟩ | ⟨g, c, hg, hencode, he⟩
  · rw [he] at hclash
    cases hclash
  · rw [he, Option.map_some, Option.some.injEq] at hclash
    have hmem : g ∈ ts := hq g (by simp [Quad.terms, hg])
    have hid := IdFactory.id_of_encode hencode
    rw [hclash] at hid
    have heq := hsep g hmem defaultGraph hdefault _ hid (IdFactory.id_defaultGraph l)
    exact hne (heq ▸ hg)

/-- Statements with the same identifiers are the same. -/
theorem eq_of_idsOf_eq (hsep : l.factory.Separates ts) (hq : ∀ t ∈ q.terms, t ∈ ts)
    (hq' : ∀ t ∈ q'.terms, t ∈ ts) (h : l.EncodesTo q e) (h' : l.EncodesTo q' e')
    (heq : l.idsOf e = l.idsOf e') : q = q' := by
  obtain ⟨hsubject, hpredicate, hobject, hcontext⟩ := StatementIds.mk.inj heq
  have hs : q.subject = q'.subject := eq_of_derive_eq hsep (hq _ (by simp [Quad.terms]))
    (hq' _ (by simp [Quad.terms])) h.subject h'.subject hsubject
  have hp : q.predicate = q'.predicate := eq_of_derive_eq hsep (hq _ (by simp [Quad.terms]))
    (hq' _ (by simp [Quad.terms])) h.predicate h'.predicate hpredicate
  have ho : q.object = q'.object := eq_of_derive_eq hsep (hq _ (by simp [Quad.terms]))
    (hq' _ (by simp [Quad.terms])) h.object h'.object hobject
  have hc : q.context = q'.context := by
    rcases h.context with ⟨hg, hnone⟩ | ⟨g, c, hg, hencode, hsome⟩
    · rcases h'.context with ⟨hg', _⟩ | ⟨g', c', _, _, hsome'⟩
      · rw [hg, hg']
      · rw [hnone, hsome'] at hcontext
        cases hcontext
    · rcases h'.context with ⟨_, hnone'⟩ | ⟨g', c', hg', hencode', hsome'⟩
      · rw [hsome, hnone'] at hcontext
        cases hcontext
      · rw [hsome, hsome', Option.map_some, Option.map_some, Option.some.injEq] at hcontext
        rw [hg, hg', eq_of_derive_eq hsep (hq g (by simp [Quad.terms, hg]))
          (hq' g' (by simp [Quad.terms, hg'])) hencode hencode' hcontext]
  exact Quad.eq_of_members hs hp ho hc

/-- Cells of statements are in the same place only if they are cells of one statement in one
order. -/
theorem eq_of_place (hsep : l.factory.Separates ts) (hdefault : defaultGraph ∈ ts)
    (hq : ∀ t ∈ q.terms, t ∈ ts) (hq' : ∀ t ∈ q'.terms, t ∈ ts) (h : l.encodeTerms q = .ok e)
    (h' : l.encodeTerms q' = .ok e') {order order' : Order}
    (hrow : l.row order (l.idsOf e) = l.row order' (l.idsOf e'))
    (hqual : l.qualifier order (l.idsOf e) = l.qualifier order' (l.idsOf e')) :
    q.normalize = q'.normalize ∧ order = order' := by
  obtain rfl := order_of_row_eq hrow
  have hterms : ∀ t ∈ q.normalize.terms, t ∈ ts := fun t ht => hq t (Quad.mem_terms_of_normalize ht)
  have hterms' : ∀ t ∈ q'.normalize.terms, t ∈ ts :=
    fun t ht => hq' t (Quad.mem_terms_of_normalize ht)
  have hencodes := encodesTo_of_encodeTerms h
  have hencodes' := encodesTo_of_encodeTerms h'
  have hclash := not_clashes hsep hdefault hterms hencodes q.context_normalize_ne
  have hclash' := not_clashes hsep hdefault hterms' hencodes' q'.context_normalize_ne
  have hids := eq_of_place_eq (l.sized_idsOf e) (l.sized_idsOf e') hrow hqual
  rw [seenContext_of_no_clash (by simp [hclash]),
    seenContext_of_no_clash (by simp [hclash'])] at hids
  exact ⟨eq_of_idsOf_eq hsep hterms hterms' hencodes hencodes' hids, rfl⟩

end Layout

end RdfIndex
