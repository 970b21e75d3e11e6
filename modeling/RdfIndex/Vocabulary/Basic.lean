import RdfIndex.Vocabulary.HashTable
import RdfIndex.Vocabulary.IdNamespace
import RdfIndex.Vocabulary.Start

/-!
# Vocabularies

A vocabulary holds what stored values refer to by hash: well-known IRIs, namespaces, languages and
namespaces of identifiers.  It is built from lists of entries.  `build` refuses two entries of one
list with the same hash, `buildFirst` keeps the one that came first.
-/

namespace RdfIndex

/-- The entries of a vocabulary to be built. -/
structure VocabularyEntries where
  /-- Well-known IRIs. -/
  iris : List String
  namespaces : List String
  languages : List String
  /-- Namespaces of identifiers. -/
  idNamespaces : List IdNamespace
deriving DecidableEq, Repr

/-- No entries. -/
def VocabularyEntries.empty : VocabularyEntries := ⟨[], [], [], []⟩

instance : Append VocabularyEntries where
  append a b :=
    ⟨a.iris ++ b.iris, a.namespaces ++ b.namespaces, a.languages ++ b.languages,
      a.idNamespaces ++ b.idNamespaces⟩

/-- What stored values refer to by hash. -/
structure Vocabulary where
  iris : HashTable String id
  namespaces : HashTable String id
  languages : HashTable String id
  idNamespaces : HashTable IdNamespace IdNamespace.ns

namespace Vocabulary

/-- A table of some entries, or why there is none. -/
def buildTable {α : Type} {text : α → String} [DecidableEq α] (table : VocabularyTable)
    (entries : List α) : Except ConfigError (HashTable α text) :=
  (HashTable.empty.insertAll entries).mapError (.collision table)

/-- The vocabulary of some entries.  IRIs come first, then namespaces, languages and namespaces of
identifiers. -/
def build (e : VocabularyEntries) : Except ConfigError Vocabulary := do
  let iris ← buildTable .iris e.iris
  let namespaces ← buildTable .namespaces e.namespaces
  let languages ← buildTable .languages e.languages
  let idNamespaces ← buildTable .idNamespaces e.idNamespaces
  return { iris, namespaces, languages, idNamespaces }

/-- The vocabulary of some entries without those that collide with one before them. -/
def buildFirst (e : VocabularyEntries) : Vocabulary where
  iris := HashTable.empty.insertFree e.iris
  namespaces := HashTable.empty.insertFree e.namespaces
  languages := HashTable.empty.insertFree e.languages
  idNamespaces := HashTable.empty.insertFree e.idNamespaces

/-- What identifies a value inside the IRI that carries it. -/
structure IdMatch where
  /-- The hash of the namespace. -/
  hash : UInt16
  /-- The bytes of the local name. -/
  bytes : Bytes
  /-- A slash follows the local name. -/
  slash : Bool
deriving DecidableEq, Repr

/-- A local name without the slash at its end, and whether it had one. -/
def dropSlash (localName : List Char) : List Char × Bool :=
  if localName.getLast? = some '/' then (localName.dropLast, true) else (localName, false)

/-- An IRI as a local name of a namespace of identifiers. -/
def matchIn? (iri : List Char) (n : IdNamespace) : Option (Bytes × Bool) :=
  match IriStart.strip? n.ns.toList iri with
  | none => none
  | some localName =>
    let (body, slash) := dropSlash localName
    (n.decodeLocal? (String.ofList body)).map fun bytes => (bytes, slash)

/-- The first namespace of identifiers that an IRI belongs to. -/
def matchId? (v : Vocabulary) (iri : String) : Option IdMatch :=
  v.idNamespaces.entries.findSome? fun (hash, n) =>
    (matchIn? iri.toList n).map fun (bytes, slash) => ⟨hash, bytes, slash⟩

/-- The hash of the namespace of an IRI, and the local name, if the namespace is in the
vocabulary. -/
def matchNamespace? (v : Vocabulary) (iri : String) : Option (UInt16 × String) := do
  let (ns, localName) ← splitNamespace? iri
  let hash ← v.namespaces.hashOf? ns
  return (hash, localName)

end Vocabulary

end RdfIndex
