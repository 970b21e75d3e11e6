/-!
# Well-known names

The namespaces and terms that the library knows by name, one Lean namespace for each of them.
-/

namespace RdfIndex

namespace Rdf

def ns : String := "http://www.w3.org/1999/02/22-rdf-syntax-ns#"
def type : String := "http://www.w3.org/1999/02/22-rdf-syntax-ns#type"
def langString : String := "http://www.w3.org/1999/02/22-rdf-syntax-ns#langString"
def xmlLiteral : String := "http://www.w3.org/1999/02/22-rdf-syntax-ns#XMLLiteral"
def property : String := "http://www.w3.org/1999/02/22-rdf-syntax-ns#Property"
def statement : String := "http://www.w3.org/1999/02/22-rdf-syntax-ns#Statement"
def subject : String := "http://www.w3.org/1999/02/22-rdf-syntax-ns#subject"
def predicate : String := "http://www.w3.org/1999/02/22-rdf-syntax-ns#predicate"
def object : String := "http://www.w3.org/1999/02/22-rdf-syntax-ns#object"
def value : String := "http://www.w3.org/1999/02/22-rdf-syntax-ns#value"
def first : String := "http://www.w3.org/1999/02/22-rdf-syntax-ns#first"
def rest : String := "http://www.w3.org/1999/02/22-rdf-syntax-ns#rest"
def nil : String := "http://www.w3.org/1999/02/22-rdf-syntax-ns#nil"

end Rdf

namespace Rdfs

def ns : String := "http://www.w3.org/2000/01/rdf-schema#"
def label : String := "http://www.w3.org/2000/01/rdf-schema#label"
def comment : String := "http://www.w3.org/2000/01/rdf-schema#comment"
def cls : String := "http://www.w3.org/2000/01/rdf-schema#Class"
def resource : String := "http://www.w3.org/2000/01/rdf-schema#Resource"
def subClassOf : String := "http://www.w3.org/2000/01/rdf-schema#subClassOf"
def subPropertyOf : String := "http://www.w3.org/2000/01/rdf-schema#subPropertyOf"
def domain : String := "http://www.w3.org/2000/01/rdf-schema#domain"
def range : String := "http://www.w3.org/2000/01/rdf-schema#range"
def seeAlso : String := "http://www.w3.org/2000/01/rdf-schema#seeAlso"

end Rdfs

namespace Xsd

def ns : String := "http://www.w3.org/2001/XMLSchema#"
def string : String := "http://www.w3.org/2001/XMLSchema#string"
def boolean : String := "http://www.w3.org/2001/XMLSchema#boolean"
def byte : String := "http://www.w3.org/2001/XMLSchema#byte"
def short : String := "http://www.w3.org/2001/XMLSchema#short"
def int : String := "http://www.w3.org/2001/XMLSchema#int"
def long : String := "http://www.w3.org/2001/XMLSchema#long"
def integer : String := "http://www.w3.org/2001/XMLSchema#integer"
def decimal : String := "http://www.w3.org/2001/XMLSchema#decimal"
def float : String := "http://www.w3.org/2001/XMLSchema#float"
def double : String := "http://www.w3.org/2001/XMLSchema#double"
def dateTime : String := "http://www.w3.org/2001/XMLSchema#dateTime"
def date : String := "http://www.w3.org/2001/XMLSchema#date"
def time : String := "http://www.w3.org/2001/XMLSchema#time"
def nonNegativeInteger : String := "http://www.w3.org/2001/XMLSchema#nonNegativeInteger"
def positiveInteger : String := "http://www.w3.org/2001/XMLSchema#positiveInteger"
def negativeInteger : String := "http://www.w3.org/2001/XMLSchema#negativeInteger"
def unsignedInt : String := "http://www.w3.org/2001/XMLSchema#unsignedInt"
def unsignedLong : String := "http://www.w3.org/2001/XMLSchema#unsignedLong"
def gYear : String := "http://www.w3.org/2001/XMLSchema#gYear"
def duration : String := "http://www.w3.org/2001/XMLSchema#duration"
def anyURI : String := "http://www.w3.org/2001/XMLSchema#anyURI"

/-- The datatypes whose values are numbers. -/
def numeric : List String :=
  [byte, short, int, long, integer, decimal, float, double, nonNegativeInteger, positiveInteger,
    unsignedInt, unsignedLong, negativeInteger]

end Xsd

namespace Owl

def ns : String := "http://www.w3.org/2002/07/owl#"
def sameAs : String := "http://www.w3.org/2002/07/owl#sameAs"
def cls : String := "http://www.w3.org/2002/07/owl#Class"
def thing : String := "http://www.w3.org/2002/07/owl#Thing"
def objectProperty : String := "http://www.w3.org/2002/07/owl#ObjectProperty"
def datatypeProperty : String := "http://www.w3.org/2002/07/owl#DatatypeProperty"

end Owl

namespace Geo

def ns : String := "http://www.opengis.net/ont/geosparql#"
def wktLiteral : String := "http://www.opengis.net/ont/geosparql#wktLiteral"

end Geo

namespace Skos

def ns : String := "http://www.w3.org/2004/02/skos/core#"
def prefLabel : String := "http://www.w3.org/2004/02/skos/core#prefLabel"
def altLabel : String := "http://www.w3.org/2004/02/skos/core#altLabel"

end Skos

namespace Wikidata

def value : String := "http://www.wikidata.org/value/"
def reference : String := "http://www.wikidata.org/reference/"

end Wikidata

namespace Internal

/-- The namespace in which identifiers are minted as IRIs. -/
def valueIds : String := "urn:quadkey:id:"
/-- The IRI under whose identifier the statements of the default graph are filed. -/
def defaultContext : String := "urn:quadkey:default-context"

end Internal

end RdfIndex
