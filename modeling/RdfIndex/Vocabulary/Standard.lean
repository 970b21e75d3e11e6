import RdfIndex.Term.Names
import RdfIndex.Vocabulary.Basic

/-!
# The standard vocabulary

Common namespaces and terms, frequent language tags, and the namespaces of identifiers that are
known to be such.
-/

namespace RdfIndex.VocabularyEntries

def standardNamespaces : List String :=
  [Rdf.ns,
    Rdfs.ns,
    Xsd.ns,
    Owl.ns,
    Geo.ns,
    Skos.ns,
    "http://schema.org/",
    "http://purl.org/dc/terms/",
    "http://xmlns.com/foaf/0.1/",
    "http://www.w3.org/ns/prov#",
    "http://www.wikidata.org/entity/",
    "http://www.wikidata.org/prop/direct/",
    "http://www.wikidata.org/entity/statement/",
    Wikidata.value,
    Wikidata.reference,
    "http://www.wikidata.org/prop/",
    "http://www.wikidata.org/prop/statement/",
    "http://www.wikidata.org/prop/qualifier/",
    "http://www.wikidata.org/prop/reference/",
    "http://wikiba.se/ontology#",
    "http://purl.org/dc/elements/1.1/",
    "http://www.w3.org/ns/shacl#",
    "http://www.w3.org/ns/dcat#",
    "http://www.w3.org/2006/time#",
    "http://rdfs.org/ns/void#",
    "http://www.w3.org/ns/sparql-service-description#",
    "http://www.opengis.net/def/function/geosparql/"]

/-- The standard well-known IRIs. -/
def standardIris : List String :=
  [Rdf.type, Rdf.langString, Rdf.xmlLiteral, Rdf.property, Rdf.statement, Rdf.subject,
    Rdf.predicate, Rdf.object, Rdf.value, Rdf.first, Rdf.rest, Rdf.nil,
    Rdfs.label, Rdfs.comment, Rdfs.cls, Rdfs.resource, Rdfs.subClassOf, Rdfs.subPropertyOf,
    Rdfs.domain, Rdfs.range, Rdfs.seeAlso,
    Xsd.string, Xsd.boolean, Xsd.byte, Xsd.short, Xsd.int, Xsd.long, Xsd.integer, Xsd.decimal,
    Xsd.float, Xsd.double, Xsd.dateTime, Xsd.date, Xsd.time, Xsd.nonNegativeInteger,
    Xsd.positiveInteger, Xsd.unsignedInt, Xsd.unsignedLong, Xsd.gYear, Xsd.duration, Xsd.anyURI,
    Owl.sameAs, Owl.cls, Owl.thing, Owl.objectProperty, Owl.datatypeProperty,
    Geo.wktLiteral,
    Skos.prefLabel, Skos.altLabel,
    "http://schema.org/name",
    "http://purl.org/dc/terms/title",
    "http://xmlns.com/foaf/0.1/name",
    Internal.defaultContext]

/-- The standard language tags. -/
def standardLanguages : List String :=
  ["en", "de", "fr", "es", "it", "ja", "nl", "pl", "pt", "ru", "sv", "zh", "ar", "cs", "ko", "fa",
    "uk", "ca", "hu", "fi", "da", "no", "tr", "he", "el", "en-GB", "en-US", "pt-BR", "zh-Hans",
    "zh-Hant"]

/-- The standard namespaces of identifiers. -/
def standardIdNamespaces : List IdNamespace :=
  [⟨Internal.valueIds, .base64Url, none⟩, ⟨Wikidata.value, .hex, some 20⟩,
    ⟨Wikidata.reference, .hex, some 20⟩]

def standard : VocabularyEntries :=
  ⟨standardIris, standardNamespaces, standardLanguages, standardIdNamespaces⟩

end RdfIndex.VocabularyEntries

namespace RdfIndex

/-- The vocabulary of the standard entries. -/
def Vocabulary.standard : Vocabulary := .buildFirst .standard

end RdfIndex
