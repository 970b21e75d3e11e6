import RdfIndex.Settings.Section
import RdfIndex.Toml.Document

/-!
# What a settings text gives

The sections of a settings text and their fields, as far as the text gives them.  `GivenSettings.read?`
fails if the text is no TOML document, has a section or a field that does not exist, or gives a field
an item of the wrong kind.
-/

namespace RdfIndex

/-- The section on identifiers. -/
structure GivenIdentifier where
  /-- The name of the digest algorithm. -/
  algorithm : Option String
  /-- The number of bytes of an identifier. -/
  size : Option Nat
  /-- The descriptor takes half a byte. -/
  nibble : Option Bool
deriving DecidableEq, Repr

/-- The section on key widths. -/
structure GivenWidths where
  subject : Option Nat
  predicate : Option Nat
  object : Option Nat
  context : Option Nat
deriving DecidableEq, Repr

/-- The section on the cache of identifiers. -/
structure GivenCache where
  shards : Option Nat
  /-- The capacity.  Zero stands for no cache. -/
  capacity : Option Nat
deriving DecidableEq, Repr

/-- A namespace of identifiers. -/
structure GivenIdNamespace where
  ns : String
  encoding : Option String
  /-- The number of bytes of an identifier. -/
  size : Option Nat
deriving DecidableEq, Repr

/-- The section on the vocabulary. -/
structure GivenVocabulary where
  namespaces : List String
  iris : List String
  languages : List String
  idNamespaces : List GivenIdNamespace
deriving DecidableEq, Repr

/-- What a settings text gives. -/
structure GivenSettings where
  identifier : GivenIdentifier
  /-- The compression threshold, from the section on encoding. -/
  threshold : Option Nat
  widths : GivenWidths
  cache : GivenCache
  vocabulary : GivenVocabulary
deriving DecidableEq, Repr

/-- The section on identifiers. -/
def GivenIdentifier.read? (item : Option Toml.Item) : Option GivenIdentifier := do
  match ← Section.readOr? [⟨"hash_algorithm", false⟩, ⟨"id_size", false⟩, ⟨"nibble", false⟩] item with
  | [algorithm, size, nibble] =>
    return ⟨← algorithm.mapM (·.string?), ← size.mapM (·.natural?), ← nibble.mapM (·.boolean?)⟩
  | _ => none

/-- The section on encoding. -/
def GivenSettings.readThreshold? (item : Option Toml.Item) : Option (Option Nat) := do
  match ← Section.readOr? [⟨"compression_threshold", false⟩] item with
  | [threshold] => threshold.mapM (·.natural?)
  | _ => none

/-- The section on key widths. -/
def GivenWidths.read? (item : Option Toml.Item) : Option GivenWidths := do
  match ← Section.readOr?
      [⟨"subject", false⟩, ⟨"predicate", false⟩, ⟨"object", false⟩, ⟨"context", false⟩] item with
  | [subject, predicate, object, context] =>
    return ⟨← subject.mapM (·.natural?), ← predicate.mapM (·.natural?),
      ← object.mapM (·.natural?), ← context.mapM (·.natural?)⟩
  | _ => none

/-- The section on the cache. -/
def GivenCache.read? (item : Option Toml.Item) : Option GivenCache := do
  match ← Section.readOr? [⟨"shards", false⟩, ⟨"capacity", false⟩] item with
  | [shards, capacity] => return ⟨← shards.mapM (·.natural?), ← capacity.mapM (·.natural?)⟩
  | _ => none

/-- A namespace of identifiers. -/
def GivenIdNamespace.read? (item : Toml.Item) : Option GivenIdNamespace := do
  match ← Section.read? [⟨"prefix", false⟩, ⟨"encoding", true⟩, ⟨"size", false⟩] item with
  | [some ns, encoding, size] =>
    return ⟨← ns.string?, ← encoding.mapM (·.string?), ← size.mapM (·.natural?)⟩
  | _ => none

namespace GivenVocabulary

/-- The list of a field.  A field that is missing is an empty list. -/
def list? {α : Type} (f : Toml.Item → Option α) : Option Toml.Item → Option (List α)
  | none => some []
  | some item => item.items?.bind (·.mapM f)

/-- The section on the vocabulary. -/
def read? (item : Option Toml.Item) : Option GivenVocabulary := do
  match ← Section.readOr? [⟨"namespaces", true⟩, ⟨"iris", true⟩, ⟨"languages", true⟩,
      ⟨"id_namespaces", true⟩] item with
  | [namespaces, iris, languages, idNamespaces] =>
    return ⟨← list? (·.string?) namespaces, ← list? (·.string?) iris,
      ← list? (·.string?) languages, ← list? GivenIdNamespace.read? idNamespaces⟩
  | _ => none

end GivenVocabulary

namespace GivenSettings

def sections : List Field :=
  [⟨"identifier", true⟩, ⟨"encoding", true⟩, ⟨"keys", true⟩, ⟨"cache", true⟩, ⟨"vocabulary", true⟩]

/-- What the entries of a document give. -/
def ofEntries? (entries : Toml.Entries) : Option GivenSettings := do
  match ← Section.byName? sections entries with
  | [identifier, encoding, widths, cache, vocabulary] =>
    return ⟨← GivenIdentifier.read? identifier, ← readThreshold? encoding, ← GivenWidths.read? widths,
      ← GivenCache.read? cache, ← GivenVocabulary.read? vocabulary⟩
  | _ => none

/-- What a settings text gives. -/
def read? (text : String) : Option GivenSettings := (Toml.Document.read? text).bind ofEntries?

end GivenSettings

end RdfIndex
