import RdfIndex.Vocabulary.Basic
import Std.Data.HashMap

/-!
# Vocabularies in maps

A table of texts can be kept in two maps, of its texts by their hashes and of its hashes by their
texts.  Namespaces of identifiers can be kept in an array, first come first, with a map of their
places by the hashes of their IRIs.

A vocabulary is assembled from its entries in turn.  What happens to an entry that collides is
decided by the caller: an error ends it all, and else the entry is left out.
-/

namespace RdfIndex

/-! ## Entries -/

section Entries

variable {σ α : Type}

/-- Puts an entry in, unless it is found by its hash.  Another entry that is found refuses it. -/
def insertWith [DecidableEq α] (text : α → String) (ofHash? : σ → UInt16 → Option α)
    (push : σ → α → σ) (s : σ) (a : α) : Except Collision σ :=
  match ofHash? s (textHash (text a)) with
  | none => .ok (push s a)
  | some kept => if kept = a then .ok s else .error ⟨textHash (text a), text kept, text a⟩

/-- Puts entries in, in turn.  A collision is handed over, and its entry is left out unless that is
an error. -/
def insertEach (insert : σ → α → Except Collision σ)
    (onCollision : Collision → Except ConfigError Unit) (s : σ) : List α → Except ConfigError σ
  | [] => .ok s
  | a :: rest =>
    match insert s a with
    | .ok s => insertEach insert onCollision s rest
    | .error c => do
      onCollision c
      insertEach insert onCollision s rest

end Entries

/-! ## Texts -/

/-- Texts by their hashes, and hashes by their texts. -/
structure TextMaps where
  byHash : Std.HashMap UInt16 String
  byText : Std.HashMap String UInt16

namespace TextMaps

/-- The maps without texts. -/
def empty : TextMaps := ⟨∅, ∅⟩

/-- The text of a hash. -/
def ofHash? (m : TextMaps) (hash : UInt16) : Option String := m.byHash[hash]?

/-- The hash of a text. -/
def hashOf? (m : TextMaps) (text : String) : Option UInt16 := m.byText[text]?

/-- The number of texts. -/
def size (m : TextMaps) : Nat := m.byHash.size

/-- The maps with one more text and its hash. -/
def push (m : TextMaps) (text : String) : TextMaps where
  byHash := m.byHash.insert (textHash text) text
  byText := m.byText.insert text (textHash text)

/-- The maps with a text.  Another text with the same hash refuses it. -/
def insert : TextMaps → String → Except Collision TextMaps := insertWith id ofHash? push

end TextMaps

/-! ## Namespaces of identifiers -/

/-- Namespaces of identifiers in an array, and their places by the hashes of their IRIs. -/
structure IdNamespaceArray where
  /-- The namespaces, first come first. -/
  entries : Array IdNamespace
  places : Std.HashMap UInt16 Nat
  /-- A namespace stands at every place. -/
  lt_of_places : ∀ (hash : UInt16) (i : Nat), places[hash]? = some i → i < entries.size

namespace IdNamespaceArray

/-- The array without namespaces. -/
def empty : IdNamespaceArray := ⟨#[], ∅, by simp⟩

/-- The namespace of a hash. -/
def ofHash? (m : IdNamespaceArray) (hash : UInt16) : Option IdNamespace :=
  match h : m.places[hash]? with
  | none => none
  | some i =>
    have : i < m.entries.size := m.lt_of_places hash i h
    some m.entries[i]

/-- The array with one more namespace, whose hash stands for the last place. -/
def push (m : IdNamespaceArray) (n : IdNamespace) : IdNamespaceArray where
  entries := m.entries.push n
  places := m.places.insert (textHash n.ns) m.entries.size
  lt_of_places := by
    intro hash i h
    rw [Array.size_push]
    rw [Std.HashMap.getElem?_insert] at h
    split at h
    · cases h
      exact Nat.lt_succ_self _
    · exact Nat.lt_succ_of_lt (m.lt_of_places hash i h)

/-- The array with a namespace.  Another namespace with the same hash refuses it. -/
def insert : IdNamespaceArray → IdNamespace → Except Collision IdNamespaceArray :=
  insertWith IdNamespace.ns ofHash? push

end IdNamespaceArray

/-! ## Vocabularies -/

/-- A vocabulary in maps. -/
structure VocabularyMaps where
  iris : TextMaps
  namespaces : TextMaps
  languages : TextMaps
  idNamespaces : IdNamespaceArray

namespace VocabularyMaps

/-- The vocabulary without entries. -/
def empty : VocabularyMaps := ⟨.empty, .empty, .empty, .empty⟩

/-- The vocabulary of some entries, with what is done about a collision. -/
def assemble (onCollision : ConfigError → Except ConfigError Unit) (e : VocabularyEntries) :
    Except ConfigError VocabularyMaps := do
  let texts := fun table =>
    insertEach TextMaps.insert (fun c => onCollision (.collision table c)) .empty
  let iris ← texts .iris e.iris
  let namespaces ← texts .namespaces e.namespaces
  let languages ← texts .languages e.languages
  let idNamespaces ← insertEach IdNamespaceArray.insert
    (fun c => onCollision (.collision .idNamespaces c)) .empty e.idNamespaces
  return { iris, namespaces, languages, idNamespaces }

/-- The vocabulary of some entries.  The first collision refuses them. -/
def build (e : VocabularyEntries) : Except ConfigError VocabularyMaps := assemble .error e

/-- The vocabulary of some entries without those that collide with one before them. -/
def buildFirst (e : VocabularyEntries) : VocabularyMaps :=
  (assemble (fun _ => .ok ()) e).toOption.getD empty

/-- The first namespace of identifiers that an IRI belongs to.  Its hash is computed again. -/
def matchId? (m : VocabularyMaps) (iri : String) : Option Vocabulary.IdMatch :=
  m.idNamespaces.entries.findSome? fun n =>
    (Vocabulary.matchIn? iri.toList n).map fun (bytes, slash) => ⟨textHash n.ns, bytes, slash⟩

/-- The hash of the namespace of an IRI, and the local name, if the namespace is in the
vocabulary. -/
def matchNamespace? (m : VocabularyMaps) (iri : String) : Option (UInt16 × String) := do
  let (ns, localName) ← splitNamespace? iri
  let hash ← m.namespaces.hashOf? ns
  return (hash, localName)

/-- How many entries there are: well-known IRIs, namespaces, namespaces of identifiers and
languages. -/
def sizes (m : VocabularyMaps) : Nat × Nat × Nat × Nat :=
  (m.iris.size, m.namespaces.size, m.idNamespaces.entries.size, m.languages.size)

end VocabularyMaps

end RdfIndex
