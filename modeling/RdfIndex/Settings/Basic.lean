import RdfIndex.Settings.Given
import RdfIndex.Statement.Layout

/-!
# Settings

Settings say how identifiers are derived, how values are encoded, how rows are laid out and what the
vocabulary holds.  `Settings.ofText` takes them from a settings text, and the standard ones where the
text gives none.  They are checked in this order: the name of the algorithm, the size of identifiers,
the key widths, the text encodings, the vocabulary.
-/

namespace RdfIndex

/-- The size of a cache of identifiers. -/
structure CacheSize where
  shards : Nat
  capacity : Nat
deriving DecidableEq, Repr

/-- The size that is used unless another one is chosen. -/
def CacheSize.standard : CacheSize := ⟨16, 65536⟩

/-- Settings. -/
structure Settings where
  /-- How identifiers are derived. -/
  identifier : IdentifierConfig
  /-- Plain strings of more bytes than this are compressed. -/
  threshold : Nat
  widths : KeyWidths
  /-- The size of the cache of identifiers, if there is one. -/
  cache : Option CacheSize
  vocabulary : Vocabulary

/-- How identifiers are to be derived. -/
def GivenIdentifier.config (g : GivenIdentifier) : Except ConfigError IdentifierConfig := do
  let algorithm ←
    match g.algorithm with
    | some name => Algorithm.ofName name
    | none => pure IdentifierConfig.standard.algorithm
  IdentifierConfig.of algorithm (g.size.getD IdentifierConfig.standard.size)
    (g.nibble.getD IdentifierConfig.standard.nibble)

/-- The widths to be used. -/
def GivenWidths.widths (g : GivenWidths) : KeyWidths where
  subject := g.subject.getD KeyWidths.standard.subject
  predicate := g.predicate.getD KeyWidths.standard.predicate
  object := g.object.getD KeyWidths.standard.object
  context := g.context.getD KeyWidths.standard.context

/-- The size of the cache to be used, if there is to be one. -/
def GivenCache.size? (g : GivenCache) : Option CacheSize :=
  match g.capacity.getD CacheSize.standard.capacity with
  | 0 => none
  | capacity => some ⟨g.shards.getD CacheSize.standard.shards, capacity⟩

/-- The namespace of identifiers to be used. -/
def GivenIdNamespace.idNamespace (g : GivenIdNamespace) : Except ConfigError IdNamespace := do
  return ⟨g.ns, ← TextEncoding.ofName (g.encoding.getD TextEncoding.base64Url.name), g.size⟩

namespace GivenVocabulary

/-- No entries are given. -/
def isEmpty (g : GivenVocabulary) : Bool :=
  g.namespaces.isEmpty && g.iris.isEmpty && g.languages.isEmpty && g.idNamespaces.isEmpty

/-- The standard vocabulary with the given entries. -/
def vocabulary (g : GivenVocabulary) : Except ConfigError Vocabulary := do
  if g.isEmpty then return .standard
  let idNamespaces ← g.idNamespaces.mapM GivenIdNamespace.idNamespace
  Vocabulary.build (.standard ++ ⟨g.iris, g.namespaces, g.languages, idNamespaces⟩)

end GivenVocabulary

namespace Settings

/-- The settings that are used unless others are chosen. -/
def standard : Settings :=
  ⟨.standard, Codec.defaultThreshold, .standard, some .standard, .standard⟩

/-- The settings to be used. -/
def ofGiven (g : GivenSettings) : Except ConfigError Settings := do
  let identifier ← g.identifier.config
  g.widths.widths.check identifier.size
  let vocabulary ← g.vocabulary.vocabulary
  return ⟨identifier, g.threshold.getD Codec.defaultThreshold, g.widths.widths, g.cache.size?,
    vocabulary⟩

def ofText (text : String) : Except Error Settings :=
  match GivenSettings.read? text with
  | some g => ofGiven g
  | none => .error .settings

/-- What terms are encoded with. -/
def codec (s : Settings) : Codec := ⟨s.vocabulary, s.threshold⟩

/-- What identifiers are derived with. -/
def factory (s : Settings) : IdFactory := ⟨s.identifier, s.codec⟩

/-- How statements are laid out in rows. -/
def layout (s : Settings) : Except ConfigError Layout := Layout.of s.factory s.widths

end Settings

end RdfIndex
