import RdfIndex.Proofs.Vocabulary.Extension

/-!
# Vocabularies without collisions

A vocabulary is built from some entries if and only if no two different ones of one table have the
same hash, and is then a bijection between the entries and their hashes
(`Vocabulary.build_ok_iff_collisionFree`).  Neither depends on the order of the entries, nor on how
often one of them is given.

A table lists an entry if it keeps it.  One entry that is added is listed from then on, or else
another one with its hash is listed already (`HashTable.insert_cases`); so entries added in turn are
all listed, or else two of them collide (`HashTable.insertAll_cases`).
-/

namespace RdfIndex

/-! ## Collisions -/

/-- Different entries of a list have texts of different hashes. -/
def CollisionFree {α : Type} (text : α → String) (as : List α) : Prop :=
  ∀ a ∈ as, ∀ b ∈ as, textHash (text a) = textHash (text b) → a = b

/-- A collision tells the texts and the hash of two different entries of a list. -/
def Collision.IsAmong {α : Type} (c : Collision) (text : α → String) (as : List α) : Prop :=
  ∃ kept ∈ as, ∃ refused ∈ as, kept ≠ refused ∧ c = ⟨c.hash, text kept, text refused⟩
    ∧ textHash (text kept) = c.hash ∧ textHash (text refused) = c.hash

theorem Collision.IsAmong.not_collisionFree {α : Type} {c : Collision} {text : α → String}
    {as : List α} (h : c.IsAmong text as) : ¬ CollisionFree text as := by
  intro hfree
  obtain ⟨kept, hkept, refused, hrefused, hne, _, hhash, hhash'⟩ := h
  exact hne (hfree kept hkept refused hrefused (hhash.trans hhash'.symm))

theorem Collision.IsAmong.mono {α : Type} {c : Collision} {text : α → String} {as bs : List α}
    (h : c.IsAmong text as) (hsubset : as ⊆ bs) : c.IsAmong text bs := by
  obtain ⟨kept, hkept, refused, hrefused, hcollide⟩ := h
  exact ⟨kept, hsubset hkept, refused, hsubset hrefused, hcollide⟩

/-! ## Tables -/

namespace HashTable

variable {α : Type} {text : α → String} {t : HashTable α text}

theorem mem_entries_iff {hash : UInt16} {a : α} :
    (hash, a) ∈ t.entries ↔ a ∈ t.toList ∧ textHash (text a) = hash := by
  constructor
  · intro h
    exact ⟨List.mem_map.2 ⟨_, h, rfl⟩, (t.hash_eq _ h).symm⟩
  · rintro ⟨hmem, rfl⟩
    obtain ⟨e, he, rfl⟩ := List.mem_map.1 hmem
    rw [← t.hash_eq e he]
    exact he

theorem ofHash?_eq_some_iff {hash : UInt16} {a : α} :
    t.ofHash? hash = some a ↔ a ∈ t.toList ∧ textHash (text a) = hash :=
  ⟨fun h => mem_entries_iff.1 (mem_of_ofHash? h), fun h => ofHash?_of_mem (mem_entries_iff.2 h)⟩

/-- The entries of a table are told apart by their hashes. -/
theorem collisionFree_toList (t : HashTable α text) : CollisionFree text t.toList := by
  intro a ha b hb heq
  have hfound := ofHash?_eq_some_iff.2 ⟨ha, heq⟩
  rw [ofHash?_eq_some_iff.2 ⟨hb, rfl⟩] at hfound
  exact (Option.some.inj hfound).symm

@[simp] theorem toList_empty : (empty : HashTable α text).toList = [] := rfl

theorem toList_push (t : HashTable α text) (a : α)
    (fresh : t.ofHash? (textHash (text a)) = none) : (t.push a fresh).toList = t.toList ++ [a] := by
  simp [toList, push]

variable [DecidableEq α]

theorem hashOf?_eq_some_iff {hash : UInt16} {a : α} :
    t.hashOf? a = some hash ↔ a ∈ t.toList ∧ textHash (text a) = hash := by
  constructor
  · intro h
    exact mem_entries_iff.1 (mem_of_hashOf? h)
  · rintro ⟨hmem, rfl⟩
    have hfound : (t.entries.find? (·.2 == a)).isSome = true := by
      rw [List.find?_isSome]
      exact ⟨_, mem_entries_iff.2 ⟨hmem, rfl⟩, beq_self_eq_true a⟩
    obtain ⟨e, he⟩ := Option.isSome_iff_exists.1 hfound
    have hhash : t.hashOf? a = some e.1 := congrArg (Option.map Prod.fst) he
    rw [hhash, (mem_entries_iff.1 (mem_of_hashOf? hhash)).2]

/-! ## Entries in turn -/

theorem insert_of_fresh {a : α} (fresh : t.ofHash? (textHash (text a)) = none) :
    t.insert a = .ok (t.push a fresh) := by
  rw [insert]
  split
  · rfl
  · next kept hkept =>
    rw [fresh] at hkept
    cases hkept

/-- An entry whose hash is there already is the entry with that hash, or it is refused. -/
theorem insert_of_ofHash? {a kept : α} (h : t.ofHash? (textHash (text a)) = some kept) :
    t.insert a = if kept = a then .ok t else .error ⟨textHash (text a), text kept, text a⟩ := by
  rw [insert]
  split
  · next fresh =>
    rw [h] at fresh
    cases fresh
  · next found hfound =>
    rw [h] at hfound
    cases hfound
    rfl

/-- One more entry is listed, or collides with one that is. -/
theorem insert_cases (t : HashTable α text) (a : α) :
    (∃ t', t.insert a = .ok t' ∧ ∀ b, b ∈ t'.toList ↔ b ∈ t.toList ∨ b = a)
      ∨ ∃ c, t.insert a = .error c ∧ c.IsAmong text (t.toList ++ [a]) := by
  rw [insert]
  split
  · next fresh =>
    refine .inl ⟨_, rfl, fun b => ?_⟩
    rw [toList_push, List.mem_append, List.mem_singleton]
  · next kept hkept =>
    obtain ⟨hmem, hhash⟩ := ofHash?_eq_some_iff.1 hkept
    split
    · next heq =>
      refine .inl ⟨t, rfl, fun b => (or_iff_left_of_imp ?_).symm⟩
      rintro rfl
      exact heq ▸ hmem
    · next hne =>
      exact .inr ⟨_, rfl, kept, List.mem_append_left _ hmem, a, by simp, hne, rfl, hhash, rfl⟩

theorem insertAll_cases (as : List α) : ∀ t : HashTable α text,
    (∃ t', t.insertAll as = .ok t' ∧ ∀ b, b ∈ t'.toList ↔ b ∈ t.toList ∨ b ∈ as)
      ∨ ∃ c, t.insertAll as = .error c ∧ c.IsAmong text (t.toList ++ as) := by
  induction as with
  | nil => exact fun t => .inl ⟨t, rfl, fun b => by simp⟩
  | cons a as ih =>
    intro t
    rw [insertAll]
    rcases t.insert_cases a with ⟨t1, hinsert, hlists⟩ | ⟨c, hinsert, hcollision⟩
    · rw [hinsert]
      rcases ih t1 with ⟨t', hall, hlists'⟩ | ⟨c, hall, hcollision⟩
      · refine .inl ⟨t', hall, fun b => ?_⟩
        rw [hlists', hlists, List.mem_cons, or_assoc]
      · refine .inr ⟨c, hall, hcollision.mono fun b hb => ?_⟩
        simpa [hlists, or_assoc] using hb
    · rw [hinsert]
      refine .inr ⟨c, rfl, hcollision.mono ?_⟩
      rw [List.append_cons t.toList a as]
      exact List.subset_append_left _ _

/-- A table without the entries that collide lists nothing but what it was given. -/
theorem mem_of_mem_insertFree {a : α} (as : List α) : ∀ {t : HashTable α text},
    a ∈ (t.insertFree as).toList → a ∈ t.toList ∨ a ∈ as := by
  induction as with
  | nil => exact .inl
  | cons b as ih =>
    intro t h
    rw [insertFree] at h
    rcases t.insert_cases b with ⟨t1, hinsert, hlists⟩ | ⟨c, hinsert, _⟩
    · rw [hinsert] at h
      rcases ih h with hmem | hmem
      · rcases (hlists a).1 hmem with hmem | rfl
        · exact .inl hmem
        · exact .inr List.mem_cons_self
      · exact .inr (List.mem_cons_of_mem _ hmem)
    · rw [hinsert] at h
      exact (ih h).imp_right (List.mem_cons_of_mem _)

/-- The table of some entries.  Hashes and entries are looked up either way, and nothing but the
entries is found. -/
structure Lists (t : HashTable α text) (as : List α) : Prop where
  /-- The entries have their hashes. -/
  hashOf? : ∀ a hash, t.hashOf? a = some hash ↔ a ∈ as ∧ textHash (text a) = hash
  /-- A hash leads to the only entry that has it. -/
  ofHash? : ∀ hash a, t.ofHash? hash = some a
    ↔ (a ∈ as ∧ textHash (text a) = hash) ∧ ∀ b ∈ as, textHash (text b) = hash → b = a
  inverse : ∀ a hash, t.hashOf? a = some hash ↔ t.ofHash? hash = some a

theorem lists_of_mem_iff {as : List α} (h : ∀ a, a ∈ t.toList ↔ a ∈ as) : t.Lists as where
  hashOf? a hash := by rw [hashOf?_eq_some_iff, h]
  ofHash? hash a := by
    rw [ofHash?_eq_some_iff, h]
    refine ⟨fun hfound => ⟨hfound, fun b hb hhash => ?_⟩, And.left⟩
    exact t.collisionFree_toList b ((h b).2 hb) a ((h a).2 hfound.1) (hhash.trans hfound.2.symm)
  inverse a hash := by rw [hashOf?_eq_some_iff, ofHash?_eq_some_iff]

/-- A table tells its entries apart. -/
theorem Lists.collisionFree {as : List α} (h : t.Lists as) : CollisionFree text as := by
  intro a ha b hb heq
  have hfound := (h.inverse b _).1 ((h.hashOf? b _).2 ⟨hb, rfl⟩)
  exact ((h.ofHash? _ b).1 hfound).2 a ha heq

/-- Two tables find the same. -/
structure SameLookups (t t' : HashTable α text) : Prop where
  hashOf? : ∀ a, t.hashOf? a = t'.hashOf? a
  ofHash? : ∀ hash, t.ofHash? hash = t'.ofHash? hash

/-- Tables of the same entries find the same. -/
theorem Lists.sameLookups {t t' : HashTable α text} {as bs : List α} (h : t.Lists as)
    (h' : t'.Lists bs) (hsame : ∀ a, a ∈ as ↔ a ∈ bs) : t.SameLookups t' where
  hashOf? a := Option.ext fun hash => by rw [h.hashOf?, h'.hashOf?, hsame]
  ofHash? hash := Option.ext fun a => by
    rw [← h.inverse, ← h'.inverse, h.hashOf?, h'.hashOf?, hsame]

end HashTable

/-! ## Vocabularies -/

namespace VocabularyEntries

/-- Different entries of one table have different hashes. -/
structure CollisionFree (e : VocabularyEntries) : Prop where
  iris : RdfIndex.CollisionFree id e.iris
  namespaces : RdfIndex.CollisionFree id e.namespaces
  languages : RdfIndex.CollisionFree id e.languages
  idNamespaces : RdfIndex.CollisionFree IdNamespace.ns e.idNamespaces

/-- A collision is among the entries of a table. -/
def Collides (e : VocabularyEntries) (c : Collision) : VocabularyTable → Prop
  | .iris => c.IsAmong id e.iris
  | .namespaces => c.IsAmong id e.namespaces
  | .languages => c.IsAmong id e.languages
  | .idNamespaces => c.IsAmong IdNamespace.ns e.idNamespaces

theorem Collides.not_collisionFree {e : VocabularyEntries} {c : Collision}
    {table : VocabularyTable} (h : e.Collides c table) : ¬ e.CollisionFree := by
  intro hfree
  cases table with
  | iris => exact Collision.IsAmong.not_collisionFree h hfree.iris
  | namespaces => exact Collision.IsAmong.not_collisionFree h hfree.namespaces
  | languages => exact Collision.IsAmong.not_collisionFree h hfree.languages
  | idNamespaces => exact Collision.IsAmong.not_collisionFree h hfree.idNamespaces

/-- The same entries in each table, in any order and given any number of times. -/
structure SameAs (e e' : VocabularyEntries) : Prop where
  iris : ∀ a, a ∈ e.iris ↔ a ∈ e'.iris
  namespaces : ∀ a, a ∈ e.namespaces ↔ a ∈ e'.namespaces
  languages : ∀ a, a ∈ e.languages ↔ a ∈ e'.languages
  idNamespaces : ∀ a, a ∈ e.idNamespaces ↔ a ∈ e'.idNamespaces

theorem SameAs.collisionFree_iff {e e' : VocabularyEntries} (h : e.SameAs e') :
    e.CollisionFree ↔ e'.CollisionFree := by
  have htable : ∀ {α : Type} {text : α → String} {as bs : List α}, (∀ a, a ∈ as ↔ a ∈ bs) →
      (RdfIndex.CollisionFree text as ↔ RdfIndex.CollisionFree text bs) := fun hsame => by
    simp only [RdfIndex.CollisionFree, hsame]
  constructor
  · intro hfree
    exact ⟨(htable h.iris).1 hfree.iris, (htable h.namespaces).1 hfree.namespaces,
      (htable h.languages).1 hfree.languages, (htable h.idNamespaces).1 hfree.idNamespaces⟩
  · intro hfree
    exact ⟨(htable h.iris).2 hfree.iris, (htable h.namespaces).2 hfree.namespaces,
      (htable h.languages).2 hfree.languages, (htable h.idNamespaces).2 hfree.idNamespaces⟩

end VocabularyEntries

namespace Vocabulary

/-- The vocabulary of some entries. -/
structure Lists (v : Vocabulary) (e : VocabularyEntries) : Prop where
  iris : v.iris.Lists e.iris
  namespaces : v.namespaces.Lists e.namespaces
  languages : v.languages.Lists e.languages
  idNamespaces : v.idNamespaces.Lists e.idNamespaces

/-- Two vocabularies find the same. -/
structure SameLookups (v v' : Vocabulary) : Prop where
  iris : v.iris.SameLookups v'.iris
  namespaces : v.namespaces.SameLookups v'.namespaces
  languages : v.languages.SameLookups v'.languages
  idNamespaces : v.idNamespaces.SameLookups v'.idNamespaces

theorem Lists.sameLookups {v v' : Vocabulary} {e e' : VocabularyEntries} (h : v.Lists e)
    (h' : v'.Lists e') (hsame : e.SameAs e') : v.SameLookups v' where
  iris := h.iris.sameLookups h'.iris hsame.iris
  namespaces := h.namespaces.sameLookups h'.namespaces hsame.namespaces
  languages := h.languages.sameLookups h'.languages hsame.languages
  idNamespaces := h.idNamespaces.sameLookups h'.idNamespaces hsame.idNamespaces

theorem Lists.collisionFree {v : Vocabulary} {e : VocabularyEntries} (h : v.Lists e) :
    e.CollisionFree where
  iris := h.iris.collisionFree
  namespaces := h.namespaces.collisionFree
  languages := h.languages.collisionFree
  idNamespaces := h.idNamespaces.collisionFree

/-- A table lists its entries, or two of them collide. -/
theorem buildTable_cases {α : Type} {text : α → String} [DecidableEq α] (table : VocabularyTable)
    (as : List α) : (∃ t : HashTable α text, buildTable table as = .ok t ∧ t.Lists as)
      ∨ ∃ c, (buildTable table as : Except ConfigError (HashTable α text))
          = .error (.collision table c) ∧ c.IsAmong text as := by
  rcases HashTable.insertAll_cases as (HashTable.empty : HashTable α text) with
    ⟨t, hinsert, hlists⟩ | ⟨c, hinsert, hcollision⟩
  · refine .inl ⟨t, by rw [buildTable, hinsert]; rfl, HashTable.lists_of_mem_iff fun a => ?_⟩
    simpa using hlists a
  · exact .inr ⟨c, by rw [buildTable, hinsert]; rfl, hcollision⟩

/-- A vocabulary lists its entries, or two of one table collide. -/
theorem build_cases (e : VocabularyEntries) : (∃ v, build e = .ok v ∧ v.Lists e)
    ∨ ∃ table c, build e = .error (.collision table c) ∧ e.Collides c table := by
  rcases buildTable_cases .iris e.iris with ⟨iris, hiris, liris⟩ | ⟨c, hiris, hc⟩
  case inr => exact .inr ⟨.iris, c, by rw [build, hiris]; rfl, hc⟩
  rcases buildTable_cases .namespaces e.namespaces with ⟨ns, hns, lns⟩ | ⟨c, hns, hc⟩
  case inr => exact .inr ⟨.namespaces, c, by rw [build, hiris, ok_bind, hns]; rfl, hc⟩
  rcases buildTable_cases .languages e.languages with ⟨langs, hlangs, llangs⟩ | ⟨c, hlangs, hc⟩
  case inr =>
    exact .inr ⟨.languages, c, by rw [build, hiris, ok_bind, hns, ok_bind, hlangs]; rfl, hc⟩
  rcases buildTable_cases .idNamespaces e.idNamespaces with ⟨ids, hids, lids⟩ | ⟨c, hids, hc⟩
  case inr =>
    refine .inr ⟨.idNamespaces, c, ?_, hc⟩
    rw [build, hiris, ok_bind, hns, ok_bind, hlangs, ok_bind, hids]
    rfl
  refine .inl ⟨⟨iris, ns, langs, ids⟩, ?_, liris, lns, llangs, lids⟩
  rw [build, hiris, ok_bind, hns, ok_bind, hlangs, ok_bind, hids]
  rfl

/-- A vocabulary lists the entries that it is built from. -/
theorem lists_of_build {e : VocabularyEntries} {v : Vocabulary} (h : build e = .ok v) :
    v.Lists e := by
  rcases build_cases e with ⟨v', hv, hlists⟩ | ⟨table, c, herror, _⟩
  · rw [hv] at h
    cases h
    exact hlists
  · rw [herror] at h
    cases h

/-- The error of entries that are refused tells two that collide. -/
theorem collides_of_build {e : VocabularyEntries} {error : ConfigError}
    (h : build e = .error error) : ∃ table c, error = .collision table c ∧ e.Collides c table := by
  rcases build_cases e with ⟨v, hv, _⟩ | ⟨table, c, herror, hcollides⟩
  · rw [hv] at h
    cases h
  · rw [herror] at h
    cases h
    exact ⟨table, c, rfl, hcollides⟩

theorem exists_build_iff (e : VocabularyEntries) : (∃ v, build e = .ok v) ↔ e.CollisionFree := by
  constructor
  · rintro ⟨v, h⟩
    exact (lists_of_build h).collisionFree
  · intro hfree
    rcases build_cases e with ⟨v, hv, _⟩ | ⟨table, c, _, hcollides⟩
    · exact ⟨v, hv⟩
    · exact absurd hfree hcollides.not_collisionFree

/-- A vocabulary is built from some entries if and only if different entries of each table have
different hashes.  If not, the error tells two that collide.  A vocabulary that is built finds the
hash of each entry and the entry of each hash, and nothing else.  So it does not matter in which
order the entries are given, nor how often each of them is. -/
theorem build_ok_iff_collisionFree (e : VocabularyEntries) :
    ((∃ v, build e = .ok v) ↔ e.CollisionFree)
      ∧ (∀ error, build e = .error error →
        ∃ table c, error = .collision table c ∧ e.Collides c table)
      ∧ (∀ v, build e = .ok v → v.Lists e)
      ∧ ∀ e', e.SameAs e' → ((∃ v, build e = .ok v) ↔ ∃ v', build e' = .ok v')
        ∧ ∀ v v', build e = .ok v → build e' = .ok v' → v.SameLookups v' := by
  refine ⟨exists_build_iff e, fun _ => collides_of_build, fun _ => lists_of_build, ?_⟩
  intro e' hsame
  constructor
  · rw [exists_build_iff, exists_build_iff, hsame.collisionFree_iff]
  · intro v v' h h'
    exact (lists_of_build h).sameLookups (lists_of_build h') hsame

/-- One entry of each table, given twice. -/
def repeated : VocabularyEntries :=
  ⟨["urn:a", "urn:a"], ["urn:", "urn:"], ["en", "en"],
    [⟨"urn:id:", .hex, some 2⟩, ⟨"urn:id:", .hex, some 2⟩]⟩

/-- The same entries, each given once. -/
def once : VocabularyEntries := ⟨["urn:a"], ["urn:"], ["en"], [⟨"urn:id:", .hex, some 2⟩]⟩

/-- A namespace of identifiers with two encodings. -/
def ambiguous : VocabularyEntries :=
  ⟨[], [], [], [⟨"urn:id:", .hex, some 2⟩, ⟨"urn:id:", .base64Url, some 2⟩]⟩

theorem build_ok_iff_collisionFree_repeated :
    (∃ v v', build repeated = .ok v ∧ build once = .ok v' ∧ v.Lists repeated ∧ v.SameLookups v')
      ∧ ∃ table c, build ambiguous = .error (.collision table c)
        ∧ ambiguous.Collides c table := by
  constructor
  · have hsame : repeated.SameAs once := by constructor <;> simp [repeated, once]
    have hfree : repeated.CollisionFree := by constructor <;> simp [repeated, CollisionFree]
    obtain ⟨hiff, _, hlists, horder⟩ := build_ok_iff_collisionFree repeated
    obtain ⟨v, hv⟩ := hiff.2 hfree
    obtain ⟨v', hv'⟩ := (horder once hsame).1.1 ⟨v, hv⟩
    exact ⟨v, v', hv, hv', hlists v hv, (horder once hsame).2 v v' hv hv'⟩
  · obtain ⟨hiff, herror, _⟩ := build_ok_iff_collisionFree ambiguous
    have hcollision : ¬ ambiguous.CollisionFree := fun hfree => by
      have heq := hfree.idNamespaces ⟨"urn:id:", .hex, some 2⟩ (by simp [ambiguous])
        ⟨"urn:id:", .base64Url, some 2⟩ (by simp [ambiguous]) rfl
      exact absurd heq (by decide)
    cases hbuild : build ambiguous with
    | ok v => exact absurd (hiff.1 ⟨v, hbuild⟩) hcollision
    | error error =>
      obtain ⟨table, c, rfl, hcollides⟩ := herror error hbuild
      exact ⟨table, c, rfl, hcollides⟩

end Vocabulary

end RdfIndex
