import RdfIndex.Proofs.Results
import RdfIndex.Proofs.Vocabulary.References

/-!
# Vocabularies that grow

A table that takes more entries keeps those it has, in their order and under their hashes
(`HashTable.prefix_of_insertAll`).  So a vocabulary that is built from the entries of another one
and more finds by hash all that the other one finds (`Vocabulary.below_of_build`).  Nothing of the
kind holds of the way back, from an IRI to a hash: a new entry may be found first.
-/

namespace RdfIndex

namespace HashTable

variable {α : Type} {text : α → String}

/-- What one table finds by hash the other one finds as well. -/
def Below (t t' : HashTable α text) : Prop :=
  ∀ (hash : UInt16) (a : α), t.ofHash? hash = some a → t'.ofHash? hash = some a

theorem mem_of_ofHash? {t : HashTable α text} {hash : UInt16} {a : α}
    (h : t.ofHash? hash = some a) : (hash, a) ∈ t.entries := by
  obtain ⟨⟨hash', a'⟩, hfind, rfl⟩ := Option.map_eq_some_iff.1 h
  have heq : hash' = hash := by simpa using List.find?_some hfind
  exact heq ▸ List.mem_of_find?_eq_some hfind

/-- A table that starts with the entries of another one finds them. -/
theorem below_of_prefix {t t' : HashTable α text} (h : t.entries <+: t'.entries) : Below t t' :=
  fun _ _ hfind => ofHash?_of_mem (h.subset (mem_of_ofHash? hfind))

variable [DecidableEq α]

/-- An entry is put at the end, unless it is there. -/
theorem prefix_of_insert {t t' : HashTable α text} {a : α} (h : t.insert a = .ok t') :
    t.entries <+: t'.entries := by
  rw [insert] at h
  split at h
  · cases h
    exact List.prefix_append _ _
  · split at h
    · cases h
      exact List.prefix_refl _
    · cases h

theorem prefix_of_insertAll {as : List α} : ∀ {t t' : HashTable α text}, t.insertAll as = .ok t' →
    t.entries <+: t'.entries := by
  induction as with
  | nil =>
    intro t t' h
    cases h
    exact List.prefix_refl _
  | cons a as ih =>
    intro t t' h
    rw [insertAll] at h
    split at h
    · next t1 hinsert => exact (prefix_of_insert hinsert).trans (ih h)
    · cases h

/-- Entries in turn are the first of them and then the others. -/
theorem insertAll_append (as bs : List α) : ∀ t : HashTable α text,
    t.insertAll (as ++ bs) = (t.insertAll as >>= fun t => t.insertAll bs) := by
  induction as with
  | nil => exact fun _ => rfl
  | cons a as ih =>
    intro t
    rw [List.cons_append, insertAll, insertAll]
    cases t.insert a with
    | ok t1 => exact ih t1
    | error e => rfl

/-- Entries that collide are left out, and those before them stay. -/
theorem prefix_of_insertFree (as : List α) : ∀ t : HashTable α text,
    t.entries <+: (t.insertFree as).entries := by
  induction as with
  | nil => exact fun t => List.prefix_refl _
  | cons a as ih =>
    intro t
    rw [insertFree]
    split
    · next t1 hinsert => exact (prefix_of_insert hinsert).trans (ih t1)
    · exact ih t

end HashTable

namespace Vocabulary

/-- What one vocabulary finds by hash the other one finds as well. -/
structure Below (v v' : Vocabulary) : Prop where
  iris : v.iris.Below v'.iris
  namespaces : v.namespaces.Below v'.namespaces
  languages : v.languages.Below v'.languages
  idNamespaces : v.idNamespaces.Below v'.idNamespaces

theorem ok_of_buildTable {α : Type} {text : α → String} [DecidableEq α] {table : VocabularyTable}
    {entries : List α} {t : HashTable α text} (h : buildTable table entries = .ok t) :
    HashTable.empty.insertAll entries = .ok t := by
  rw [buildTable] at h
  cases hinsert : (HashTable.empty : HashTable α text).insertAll entries with
  | ok t' =>
    rw [hinsert] at h
    cases h
    rfl
  | error e =>
    rw [hinsert] at h
    cases h

/-- A table of more entries finds what the table of fewer finds. -/
theorem below_of_buildTable {α : Type} {text : α → String} [DecidableEq α]
    {table : VocabularyTable} {as bs : List α} {t t' : HashTable α text}
    (h : buildTable table as = .ok t) (h' : buildTable table (as ++ bs) = .ok t') : t.Below t' := by
  have happend := ok_of_buildTable h'
  rw [HashTable.insertAll_append, ok_of_buildTable h] at happend
  exact HashTable.below_of_prefix (HashTable.prefix_of_insertAll happend)

theorem below_of_build {e more : VocabularyEntries} {v v' : Vocabulary} (h : build e = .ok v)
    (h' : build (e ++ more) = .ok v') : v.Below v' := by
  obtain ⟨iris, hiris, h⟩ := ok_of_bind h
  obtain ⟨namespaces, hnamespaces, h⟩ := ok_of_bind h
  obtain ⟨languages, hlanguages, h⟩ := ok_of_bind h
  obtain ⟨idNamespaces, hids, h⟩ := ok_of_bind h
  obtain ⟨iris', hiris', h'⟩ := ok_of_bind h'
  obtain ⟨namespaces', hnamespaces', h'⟩ := ok_of_bind h'
  obtain ⟨languages', hlanguages', h'⟩ := ok_of_bind h'
  obtain ⟨idNamespaces', hids', h'⟩ := ok_of_bind h'
  cases h
  cases h'
  exact ⟨below_of_buildTable hiris hiris', below_of_buildTable hnamespaces hnamespaces',
    below_of_buildTable hlanguages hlanguages', below_of_buildTable hids hids'⟩

end Vocabulary

end RdfIndex
