import RdfIndex.Proofs.Vocabulary.Collisions
import RdfIndex.Vocabulary.Maps

/-!
# Maps find what tables find

A vocabulary in maps holds a vocabulary of tables if every look-up finds the same in both
(`VocabularyMaps.Holds`).  One entry more is refused on both sides for the same collision, or the
maps still hold the table with it (`TextMaps.Holds.insert`, `IdNamespaceArray.Holds.insert`).  So it
is for entries in turn, whether a collision ends them (`insertEach_error`) or not
(`insertEach_first`), and a vocabulary in maps is built from the same entries as one of tables
(`VocabularyMaps.build_refines`).

A table keeps its entries in one list.  The maps of texts have no order, so they are compared with
the list look-up by look-up, while the array of namespaces is that list.
-/

namespace RdfIndex

/-! ## Outcomes alike -/

/-- Two computations fail with the same error, or come to results that are related. -/
inductive Alike {ε σ τ : Type} (R : σ → τ → Prop) : Except ε σ → Except ε τ → Prop
  | ok {s : σ} {t : τ} (h : R s t) : Alike R (.ok s) (.ok t)
  | error (e : ε) : Alike R (.error e) (.error e)

theorem Alike.bind {ε σ τ σ' τ' : Type} {R : σ → τ → Prop} {S : σ' → τ' → Prop} {x : Except ε σ}
    {y : Except ε τ} {f : σ → Except ε σ'} {g : τ → Except ε τ'} (h : Alike R x y)
    (hf : ∀ s t, R s t → Alike S (f s) (g t)) : Alike S (x >>= f) (y >>= g) := by
  cases h with
  | ok h => exact hf _ _ h
  | error e => exact .error e

theorem Alike.exists_ok_iff {ε σ τ : Type} {R : σ → τ → Prop} {x : Except ε σ} {y : Except ε τ}
    (h : Alike R x y) : (∃ s, x = .ok s) ↔ ∃ t, y = .ok t := by
  cases h with
  | ok h => exact ⟨fun _ => ⟨_, rfl⟩, fun _ => ⟨_, rfl⟩⟩
  | error e => exact ⟨nofun, nofun⟩

/-! ## One more entry -/

namespace HashTable

variable {α : Type} {text : α → String}

theorem ofHash?_push (t : HashTable α text) (a : α) (fresh : t.ofHash? (textHash (text a)) = none)
    (hash : UInt16) : (t.push a fresh).ofHash? hash
      = if textHash (text a) = hash then some a else t.ofHash? hash := by
  split
  · next heq =>
    refine ofHash?_eq_some_iff.2 ⟨?_, heq⟩
    rw [toList_push]
    exact List.mem_append_right _ (List.mem_singleton_self a)
  · next hne =>
    refine Option.ext fun b => ?_
    rw [ofHash?_eq_some_iff, ofHash?_eq_some_iff, toList_push, List.mem_append, List.mem_singleton]
    constructor
    · rintro ⟨hmem | rfl, hhash⟩
      · exact ⟨hmem, hhash⟩
      · exact absurd hhash hne
    · rintro ⟨hmem, hhash⟩
      exact ⟨.inl hmem, hhash⟩

theorem hashOf?_push [DecidableEq α] (t : HashTable α text) (a : α)
    (fresh : t.ofHash? (textHash (text a)) = none) (b : α) : (t.push a fresh).hashOf? b
      = if a = b then some (textHash (text a)) else t.hashOf? b := by
  refine Option.ext fun hash => ?_
  rw [hashOf?_eq_some_iff, toList_push, List.mem_append, List.mem_singleton]
  split
  · next heq =>
    subst heq
    rw [Option.some_inj]
    exact and_iff_right (.inr rfl)
  · next hne => rw [hashOf?_eq_some_iff, or_iff_left (Ne.symm hne)]

theorem size_push (t : HashTable α text) (a : α) (fresh : t.ofHash? (textHash (text a)) = none) :
    (t.push a fresh).size = t.size + 1 := by
  rw [size, size, push, List.length_append, List.length_singleton]

/-- The entries have their hashes. -/
theorem entries_eq_map (t : HashTable α text) :
    t.entries = t.toList.map fun a => (textHash (text a), a) := by
  have hself : ∀ e ∈ t.entries, id e = ((fun a => (textHash (text a), a)) ∘ Prod.snd) e :=
    fun e he => Prod.ext (t.hash_eq e he) rfl
  rw [toList, List.map_map, ← List.map_congr_left hself, List.map_id]

end HashTable

/-! ## Entries in turn -/

section Entries

variable {σ α : Type} {text : α → String} [DecidableEq α] {R : σ → HashTable α text → Prop}

/-- An entry is refused for the same collision as by a table that finds the same, or else put in on
both sides, unless it is there already. -/
theorem alike_insertWith {ofHash? : σ → UInt16 → Option α} {push : σ → α → σ} {s : σ}
    {t : HashTable α text} {a : α} (hfind : ∀ hash, ofHash? s hash = t.ofHash? hash) (h : R s t)
    (hpush : ∀ fresh, R (push s a) (t.push a fresh)) :
    Alike R (insertWith text ofHash? push s a) (t.insert a) := by
  rw [insertWith, hfind]
  cases hkept : t.ofHash? (textHash (text a)) with
  | none =>
    rw [HashTable.insert_of_fresh hkept]
    exact .ok (hpush hkept)
  | some kept =>
    rw [HashTable.insert_of_ofHash? hkept]
    show Alike R (if kept = a then _ else _) _
    split
    · exact .ok h
    · exact .error _

variable {insert : σ → α → Except Collision σ}

/-- Entries of which a collision refuses all are refused by a table as well, or held. -/
theorem insertEach_error (hinsert : ∀ {s t}, R s t → ∀ a, Alike R (insert s a) (t.insert a))
    (table : VocabularyTable) (as : List α) : ∀ {s : σ} {t : HashTable α text}, R s t →
      Alike R (insertEach insert (fun c => .error (.collision table c)) s as)
        ((t.insertAll as).mapError (.collision table)) := by
  induction as with
  | nil => exact fun h => .ok h
  | cons a as ih =>
    intro s t h
    have hstep := hinsert h a
    rw [insertEach, HashTable.insertAll]
    generalize insert s a = inMaps at hstep
    generalize t.insert a = inTable at hstep
    cases hstep with
    | ok h => exact ih h
    | error c => exact .error _

/-- Entries that collide are left out on both sides. -/
theorem insertEach_first (hinsert : ∀ {s t}, R s t → ∀ a, Alike R (insert s a) (t.insert a))
    (as : List α) : ∀ {s : σ} {t : HashTable α text}, R s t →
      ∃ s', insertEach insert (fun _ => .ok ()) s as = .ok s' ∧ R s' (t.insertFree as) := by
  induction as with
  | nil => exact fun h => ⟨_, rfl, h⟩
  | cons a as ih =>
    intro s t h
    have hstep := hinsert h a
    rw [insertEach, HashTable.insertFree]
    generalize insert s a = inMaps at hstep
    generalize t.insert a = inTable at hstep
    cases hstep with
    | ok h => exact ih h
    | error c => exact ih h

end Entries

/-! ## Texts -/

namespace TextMaps

/-- The maps find what a table of texts finds. -/
structure Holds (m : TextMaps) (t : HashTable String id) : Prop where
  ofHash?_eq : ∀ hash, m.ofHash? hash = t.ofHash? hash
  hashOf?_eq : ∀ text, m.hashOf? text = t.hashOf? text
  size_eq : m.size = t.size

variable {m : TextMaps} {t : HashTable String id}

theorem ofHash?_push (m : TextMaps) (text : String) (hash : UInt16) :
    (m.push text).ofHash? hash = if textHash text = hash then some text else m.ofHash? hash := by
  rw [ofHash?, push, Std.HashMap.getElem?_insert]
  simp only [beq_iff_eq]
  rfl

theorem hashOf?_push (m : TextMaps) (text other : String) : (m.push text).hashOf? other
    = if text = other then some (textHash text) else m.hashOf? other := by
  rw [hashOf?, push, Std.HashMap.getElem?_insert]
  simp only [beq_iff_eq]
  rfl

/-- A text whose hash is new is one more. -/
theorem size_push {text : String} (fresh : m.ofHash? (textHash text) = none) :
    (m.push text).size = m.size + 1 := by
  have hnew : textHash text ∉ m.byHash := fun hmem => by
    have hfound := Std.HashMap.mem_iff_isSome_getElem?.1 hmem
    rw [← ofHash?, fresh] at hfound
    cases hfound
  rw [size, push, Std.HashMap.size_insert, if_neg hnew]
  rfl

theorem holds_empty : empty.Holds HashTable.empty where
  ofHash?_eq _ := Std.HashMap.getElem?_empty
  hashOf?_eq _ := Std.HashMap.getElem?_empty
  size_eq := Std.HashMap.size_empty

theorem Holds.push (h : m.Holds t) (text : String) (fresh : t.ofHash? (textHash text) = none) :
    (m.push text).Holds (t.push text fresh) where
  ofHash?_eq hash := by
    rw [ofHash?_push, HashTable.ofHash?_push, h.ofHash?_eq]
    rfl
  hashOf?_eq other := by
    rw [hashOf?_push, HashTable.hashOf?_push, h.hashOf?_eq]
    rfl
  size_eq := by
    rw [size_push ((h.ofHash?_eq _).trans fresh), HashTable.size_push, h.size_eq]

/-- A text is refused for the same collision, or held. -/
theorem Holds.insert (h : m.Holds t) (text : String) :
    Alike Holds (m.insert text) (t.insert text) :=
  alike_insertWith h.ofHash?_eq h (h.push text)

end TextMaps

/-! ## Namespaces of identifiers -/

namespace IdNamespaceArray

/-- The array lists what a table of namespaces lists, and finds what it finds. -/
structure Holds (m : IdNamespaceArray) (t : HashTable IdNamespace IdNamespace.ns) : Prop where
  ofHash?_eq : ∀ hash, m.ofHash? hash = t.ofHash? hash
  toList_eq : m.entries.toList = t.toList

variable {m : IdNamespaceArray} {t : HashTable IdNamespace IdNamespace.ns}

/-- A namespace is found at its place. -/
theorem ofHash?_eq_bind (m : IdNamespaceArray) (hash : UInt16) :
    m.ofHash? hash = m.places[hash]?.bind fun i => m.entries[i]? := by
  rw [ofHash?]
  split
  · next hplace => rw [hplace, Option.bind_none]
  · next i hplace =>
    have hlt : i < m.entries.size := m.lt_of_places hash i hplace
    have hbind : (m.places[hash]?.bind fun i => m.entries[i]?) = some m.entries[i] := by
      rw [hplace, Option.bind_some, Array.getElem?_eq_getElem hlt]
    exact hbind.symm

theorem ofHash?_push (m : IdNamespaceArray) (n : IdNamespace) (hash : UInt16) :
    (m.push n).ofHash? hash = if textHash n.ns = hash then some n else m.ofHash? hash := by
  rw [ofHash?_eq_bind, ofHash?_eq_bind, push, Std.HashMap.getElem?_insert]
  simp only [beq_iff_eq]
  split
  · rw [Option.bind_some, Array.getElem?_push, if_pos rfl]
  · refine Option.bind_congr fun i hplace => ?_
    rw [Array.getElem?_push, if_neg (Nat.ne_of_lt (m.lt_of_places hash i hplace))]

theorem holds_empty : empty.Holds HashTable.empty where
  ofHash?_eq hash := by
    rw [ofHash?_eq_bind, empty, Std.HashMap.getElem?_empty]
    rfl
  toList_eq := rfl

theorem Holds.push (h : m.Holds t) (n : IdNamespace) (fresh : t.ofHash? (textHash n.ns) = none) :
    (m.push n).Holds (t.push n fresh) where
  ofHash?_eq hash := by rw [ofHash?_push, HashTable.ofHash?_push, h.ofHash?_eq]
  toList_eq := by rw [IdNamespaceArray.push, Array.toList_push, h.toList_eq, HashTable.toList_push]

/-- A namespace is refused for the same collision, or held. -/
theorem Holds.insert (h : m.Holds t) (n : IdNamespace) :
    Alike Holds (m.insert n) (t.insert n) :=
  alike_insertWith h.ofHash?_eq h (h.push n)

end IdNamespaceArray

/-! ## Vocabularies -/

namespace VocabularyMaps

/-- The vocabulary in maps finds what a vocabulary of tables finds. -/
structure Holds (m : VocabularyMaps) (v : Vocabulary) : Prop where
  iris : m.iris.Holds v.iris
  namespaces : m.namespaces.Holds v.namespaces
  languages : m.languages.Holds v.languages
  idNamespaces : m.idNamespaces.Holds v.idNamespaces

variable {m : VocabularyMaps} {v : Vocabulary}

/-- Nothing refuses the vocabulary that leaves out what collides. -/
theorem assemble_first (e : VocabularyEntries) :
    ∃ m, assemble (fun _ => .ok ()) e = .ok m ∧ m.Holds (Vocabulary.buildFirst e) := by
  obtain ⟨iris, hiris, kiris⟩ :=
    insertEach_first TextMaps.Holds.insert e.iris TextMaps.holds_empty
  obtain ⟨namespaces, hnamespaces, knamespaces⟩ :=
    insertEach_first TextMaps.Holds.insert e.namespaces TextMaps.holds_empty
  obtain ⟨languages, hlanguages, klanguages⟩ :=
    insertEach_first TextMaps.Holds.insert e.languages TextMaps.holds_empty
  obtain ⟨ids, hids, kids⟩ :=
    insertEach_first IdNamespaceArray.Holds.insert e.idNamespaces IdNamespaceArray.holds_empty
  refine ⟨⟨iris, namespaces, languages, ids⟩, ?_, kiris, knamespaces, klanguages, kids⟩
  simp only [assemble, hiris, hnamespaces, hlanguages, hids, ok_bind]
  rfl

/-- From the same entries a vocabulary in maps is built that holds the one of tables, or both are
refused with the same error.  If what collides is left out, the one in maps holds the one of tables
always. -/
theorem build_refines (e : VocabularyEntries) :
    Alike Holds (build e) (Vocabulary.build e)
      ∧ (buildFirst e).Holds (Vocabulary.buildFirst e) := by
  constructor
  · refine (insertEach_error TextMaps.Holds.insert .iris e.iris TextMaps.holds_empty).bind ?_
    intro iris iris' hiris
    refine (insertEach_error TextMaps.Holds.insert .namespaces e.namespaces
      TextMaps.holds_empty).bind ?_
    intro namespaces namespaces' hnamespaces
    refine (insertEach_error TextMaps.Holds.insert .languages e.languages
      TextMaps.holds_empty).bind ?_
    intro languages languages' hlanguages
    refine (insertEach_error IdNamespaceArray.Holds.insert .idNamespaces e.idNamespaces
      IdNamespaceArray.holds_empty).bind ?_
    intro ids ids' hids
    exact .ok ⟨hiris, hnamespaces, hlanguages, hids⟩
  · obtain ⟨m, hm, hholds⟩ := assemble_first e
    rw [buildFirst, hm]
    exact hholds

/-- A vocabulary in maps is built if and only if no entries collide. -/
theorem exists_build_iff (e : VocabularyEntries) : (∃ m, build e = .ok m) ↔ e.CollisionFree :=
  (build_refines e).1.exists_ok_iff.trans (Vocabulary.exists_build_iff e)

/-! ## What is found -/

/-- The hash of a namespace of identifiers is computed again, and is the one it is kept with. -/
theorem Holds.matchId?_eq (h : m.Holds v) (iri : String) : m.matchId? iri = v.matchId? iri := by
  rw [matchId?, Vocabulary.matchId?, ← Array.findSome?_toList, h.idNamespaces.toList_eq,
    HashTable.entries_eq_map, List.findSome?_map]
  rfl

theorem Holds.matchNamespace?_eq (h : m.Holds v) (iri : String) :
    m.matchNamespace? iri = v.matchNamespace? iri := by
  simp only [matchNamespace?, Vocabulary.matchNamespace?, h.namespaces.hashOf?_eq]

theorem Holds.sizes_eq (h : m.Holds v) :
    m.sizes = (v.iris.size, v.namespaces.size, v.idNamespaces.size, v.languages.size) := by
  rw [sizes, h.iris.size_eq, h.namespaces.size_eq, h.languages.size_eq, ← Array.length_toList,
    h.idNamespaces.toList_eq, HashTable.toList, List.length_map]
  rfl

end VocabularyMaps

end RdfIndex
