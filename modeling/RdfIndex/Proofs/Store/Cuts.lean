import RdfIndex.Proofs.Encoding.Cuts
import RdfIndex.Proofs.Statement.Identity
import RdfIndex.Store.Quads
import RdfIndex.Term.Parser

/-!
# Statements that cannot be stored

A statement has cells and can be inserted unless a term of it cannot be encoded, whatever the layout
and the store.  `encoding_ok_iff` collects the conditions, from the readers of labels to the store.
Statements that cannot be stored do come in as text (`encoding_fails_on_parsed`).
-/

namespace RdfIndex

open Calendar (ZonedDate ZonedTime DateTime CutsZone CutsTime CutsDateTime)

namespace Quad

theorem forall_terms_iff {q : Quad} {P : Term → Prop} : (∀ t ∈ q.terms, P t)
    ↔ P q.subject ∧ P q.predicate ∧ P q.object ∧ ∀ g ∈ q.context, P g := by
  simp only [terms, List.forall_mem_cons, Option.mem_toList, Option.mem_def]

/-- The name of the default graph can be encoded, so it does not matter whether it is given. -/
theorem forall_terms_normalize {q : Quad} :
    (∀ t ∈ q.normalize.terms, ¬ t.IsCut) ↔ ∀ t ∈ q.terms, ¬ t.IsCut := by
  have hcontext : (∀ g ∈ q.normalize.context, ¬ g.IsCut) ↔ ∀ g ∈ q.context, ¬ g.IsCut := by
    refine ⟨fun h g hg hcut => h g (context_normalize_eq_some.2 ⟨hg, ?_⟩) hcut,
      fun h g hg => h g (context_normalize_eq_some.1 hg).1⟩
    rintro rfl
    exact hcut
  rw [forall_terms_iff, forall_terms_iff, subject_normalize, predicate_normalize, object_normalize,
    hcontext]

end Quad

namespace Layout

theorem encodeTerms_ok_iff (l : Layout) (q : Quad) :
    (∃ e, l.encodeTerms q = .ok e) ↔ ∀ t ∈ q.terms, ¬ t.IsCut := by
  rw [← Quad.forall_terms_normalize, Quad.forall_terms_iff]
  simp only [← l.factory.codec.encode_ok_iff]
  rw [← exists_ok_mapM_iff]
  exact exists_ok_bind_iff fun _ => exists_ok_bind_iff fun _ => exists_ok_bind_iff fun _ =>
    exists_ok_bind_pure_iff

/-- A statement has cells unless a label in it would be cut inside a character. -/
theorem cells_ok_iff (l : Layout) (q : Quad) :
    (∃ cells, l.cells q = .ok cells) ↔ ∀ t ∈ q.terms, ¬ t.IsCut :=
  exists_ok_map_iff.trans (l.encodeTerms_ok_iff q)

end Layout

/-- A statement can be inserted unless a label in it would be cut inside a character. -/
theorem QuadStore.insert_ok_iff (s : QuadStore) (q : Quad) :
    (∃ s', s.insert q = .ok s') ↔ ∀ t ∈ q.terms, ¬ t.IsCut :=
  exists_ok_bind_pure_iff.trans (s.layout.cells_ok_iff q)

/-- Encoding fails on the labels of dates and times that would be cut inside a character, and on
nothing else.  A date is cut at its zone; a time also at its seconds, and a date with a time as
well if the date is accepted.  A term is encoded unless such a literal is in it, and a statement has
cells and can be inserted unless such a term is in it. -/
theorem encoding_ok_iff (label : String) (codec : Codec) (t : Term) (l : Layout) (s : QuadStore)
    (q : Quad) :
    ((∃ v, ZonedDate.read? label = .ok v) ↔ ¬ CutsZone label.toList)
    ∧ ((∃ v, ZonedTime.read? label = .ok v) ↔ ¬ CutsTime label.toList)
    ∧ ((∃ v, DateTime.read? label = .ok v) ↔ ¬ CutsDateTime label.toList)
    ∧ ((∃ e, codec.encode t = .ok e) ↔ ¬ t.IsCut)
    ∧ ((∃ cells, l.cells q = .ok cells) ↔ ∀ t ∈ q.terms, ¬ t.IsCut)
    ∧ ((∃ s', s.insert q = .ok s') ↔ ∀ t ∈ q.terms, ¬ t.IsCut) :=
  ⟨ZonedDate.read?_ok_iff label, ZonedTime.read?_ok_iff label, DateTime.read?_ok_iff label,
    codec.encode_ok_iff t, l.cells_ok_iff q, s.insert_ok_iff q⟩

/-- A statement about a date whose label is eight bytes of three characters. -/
def Quad.cutDate : Quad :=
  ⟨.iri "urn:s", .iri "urn:p", .literal (.typed "日本é" Xsd.date), none⟩

/-- The labels `日本é` and `12:34:日本` are cut inside a character, and a statement with such a label
comes in as text, but no store takes it. -/
theorem encoding_fails_on_parsed :
    ZonedDate.read? "日本é" = .error ⟨2⟩
      ∧ ZonedTime.read? "12:34:日本" = .error ⟨8⟩
      ∧ DateTime.read? "2024-02-29T12:34:日本" = .error ⟨8⟩
      ∧ Quad.parse "<urn:s> <urn:p> \"日本é\"^^<http://www.w3.org/2001/XMLSchema#date> ."
        = .ok .cutDate
      ∧ ∀ s : QuadStore, s.insert .cutDate = .error ⟨2⟩ :=
  ⟨rfl, rfl, rfl, ok_of_toOption (by decide +kernel), fun _ => rfl⟩

end RdfIndex
