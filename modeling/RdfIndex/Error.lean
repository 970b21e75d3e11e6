import RdfIndex.Calendar.Label
import RdfIndex.Digest.Algorithm
import RdfIndex.Encoding.DecodeError
import RdfIndex.Term.Parser

/-!
# What can go wrong

Every operation fails with one of a few kinds of error: stored bytes that cannot be read, a
configuration that makes no sense, a request that cannot be answered, a settings text that is
malformed.  A text that is cut inside a character is no error of these kinds but stops the program.
-/

namespace RdfIndex

/-- A table of a vocabulary. -/
inductive VocabularyTable where
  | iris
  | namespaces
  | languages
  | idNamespaces
deriving DecidableEq, Repr

/-- The name of a table in messages. -/
def VocabularyTable.name : VocabularyTable → String
  | iris => "IRI"
  | namespaces => "namespace"
  | languages => "language"
  | idNamespaces => "identifier namespace"

/-- Two entries of one table with the same hash. -/
structure Collision where
  hash : UInt16
  /-- The entry that is in the table. -/
  kept : String
  /-- The entry that was to be added. -/
  refused : String
deriving DecidableEq, Repr

/-- Why a log filter is refused. -/
inductive LogFilterFault where
  /-- A directive is malformed. -/
  | directive
  /-- What stands for a level is none. -/
  | level
deriving DecidableEq, Repr

/-- The wording of a refusal. -/
def LogFilterFault.message : LogFilterFault → String
  | directive => "invalid filter directive"
  | level =>
    "error parsing level filter: expected one of \"off\", \"error\", \"warn\", \"info\", \"debug\", "
      ++ "\"trace\", or a number 0-5"

/-- A configuration that makes no sense. -/
inductive ConfigError where
  | unknownAlgorithm (name : String)
  /-- A digest is too short for a hash. -/
  | digestTooShort (algorithm : Algorithm) (size : Nat)
  /-- A digest is too short for an identifier. -/
  | identifierTooWide (algorithm : Algorithm) (size : Nat)
  | identifierEmpty
  /-- A key hash is empty or wider than an identifier. -/
  | keyWidth (role : Role) (width idSize : Nat)
  | unknownTextEncoding (name : String)
  /-- Two entries of a vocabulary table collide. -/
  | collision (table : VocabularyTable) (collision : Collision)
  | logFilter (fault : LogFilterFault)
deriving DecidableEq, Repr

/-- The wording of a configuration error. -/
def ConfigError.message : ConfigError → String
  | unknownAlgorithm name => "unsupported hash algorithm: " ++ name
  | digestTooShort a size =>
    s!"{a.name} produces {a.digestSize} bytes, cannot derive {size}-byte hashes"
  | identifierTooWide a size => s!"{a.name} produces {a.digestSize} bytes, identifiers need {size}"
  | identifierEmpty => "identifier size must be positive"
  | keyWidth role width idSize =>
    s!"{role.name} key hash of {width} bytes must be between 1 and the identifier size {idSize}"
  | unknownTextEncoding name => "unknown identifier encoding: " ++ name
  | collision table c =>
    s!"{table.name} hash collision {showHash c.hash}: {Quoted.string c.kept} and "
      ++ Quoted.string c.refused
  | logFilter fault => "invalid log level: " ++ fault.message

/-- A request that cannot be answered. -/
inductive UsageError where
  /-- A text is no term. -/
  | term (source : String) (fault : ParseFault)
  /-- A text is no statement. -/
  | statement (source : String) (fault : QuadFault)
  /-- The predicate of a quoted triple is no IRI. -/
  | triplePredicate (t : Term)
  | unknownRole (name : String)
  | unknownOrder (name : String)
  /-- The number of forks is no power of two. -/
  | forkCount (count : Nat)
  /-- There is no fork with this number. -/
  | forkNumber (fork count : Nat)
  /-- The bound roles of a pattern do not come first in the order. -/
  | pattern (order : Order)
  /-- A scan is to be split on a role that is not the first unbound one. -/
  | forkRole (order : Order) (role : Role)
  /-- The number of a fork has more bits than the key hash. -/
  | forkBits (bits width : Nat) (role : Role)
  /-- There are no parts to load into. -/
  | loadCount
  /-- The first byte of the keys has fewer bits. -/
  | splitBits (bits : Nat)
deriving DecidableEq

/-- The wording of a usage error. -/
def UsageError.message : UsageError → String
  | term source fault => fault.message source
  | statement source (.text fault) => fault.message source
  | statement _ (.predicate t) => "predicate must be an IRI: " ++ t.text
  | statement _ (.subject t) => "subject cannot be a literal: " ++ t.text
  | statement _ .context => "context must be an IRI or a blank node"
  | triplePredicate t => "triple predicate is not an IRI: " ++ t.text
  | unknownRole name => "unknown role: " ++ name
  | unknownOrder name => "unknown index: " ++ name
  | forkCount count => s!"partition count {count} is not a power of two"
  | forkNumber fork count => s!"fork {fork} out of range for {count} partitions"
  | pattern order => s!"{order.name} cannot answer the requested pattern"
  | forkRole order role => s!"{role.name} is not the first unbound role of {order.name}"
  | forkBits bits width role =>
    s!"{bits} partition bits exceed the {width}-byte {role.name} key hash"
  | loadCount => "load partition count must be positive"
  | splitBits bits => s!"cannot pre-split on {bits} bits of one byte"

/-- What an operation can fail with. -/
inductive Error where
  | decode (e : DecodeError)
  | config (e : ConfigError)
  | usage (e : UsageError)
  /-- The settings text is malformed. -/
  | settings
  /-- A text was to be cut inside a character. -/
  | cut (e : InsideCharacter)
deriving DecidableEq

namespace Error

/-- The wording of an error. -/
def message : Error → String
  | decode e => "decode error: " ++ e.message
  | config e => "configuration error: " ++ e.message
  | usage e => "usage error: " ++ e.message
  | settings => "config parse error"
  | cut _ => "text cut inside a character"

end Error

instance : MonadLift (Except DecodeError) (Except Error) where
  monadLift r := r.mapError .decode

instance : MonadLift (Except ConfigError) (Except Error) where
  monadLift r := r.mapError .config

instance : MonadLift (Except UsageError) (Except Error) where
  monadLift r := r.mapError .usage

instance : MonadLift (Except InsideCharacter) (Except Error) where
  monadLift r := r.mapError .cut

end RdfIndex
