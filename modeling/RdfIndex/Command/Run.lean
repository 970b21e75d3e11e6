import RdfIndex.Command.Arguments
import RdfIndex.Command.LogFilter
import RdfIndex.Command.Report
import RdfIndex.Request
import RdfIndex.Settings.Basic
import RdfIndex.Statement.Cell
import RdfIndex.Statement.Fork

/-!
# Running commands

A command is run in this order: the log filter is checked, the settings are read, the layout is built,
the command is answered.  The first step that fails ends the run with status 1 and a message.  A text
that is cut inside a character stops the program with status 101, a malformed command line with 2.

`Command.answer` gives what a command answers, as lines of text and as a report, and `run` what the
program writes.
-/

namespace RdfIndex

/-- Why a run fails. -/
inductive RunFault where
  /-- An operation fails. -/
  | error (e : Error)
  /-- An argument is not hexadecimal. -/
  | hex (fault : Hex.Fault)
  /-- The file with the settings cannot be read. -/
  | file (reason : String)
deriving DecidableEq

/-- The wording of a fault. -/
def RunFault.message : RunFault → String
  | error e => e.message
  | hex fault => fault.message
  | file reason => "IO: " ++ reason

instance : MonadLift (Except Error) (Except RunFault) where
  monadLift r := r.mapError .error

instance : MonadLift (Except DecodeError) (Except RunFault) where
  monadLift r := r.mapError fun e => .error (.decode e)

instance : MonadLift (Except ConfigError) (Except RunFault) where
  monadLift r := r.mapError fun e => .error (.config e)

instance : MonadLift (Except UsageError) (Except RunFault) where
  monadLift r := r.mapError fun e => .error (.usage e)

instance : MonadLift (Except InsideCharacter) (Except RunFault) where
  monadLift r := r.mapError fun e => .error (.cut e)

instance : MonadLift (Except Hex.Fault) (Except RunFault) where
  monadLift r := r.mapError .hex

/-- What a command answers. -/
structure Response where
  /-- As lines of text. -/
  lines : List String
  /-- As a report, whose fields are in alphabetical order. -/
  report : Report

/-- What a response is written as. -/
def Response.render (r : Response) : OutputFormat → String
  | .text => String.join (r.lines.map (· ++ "\n"))
  | .json => r.report.render ++ "\n"

namespace Command

/-! ## Answers -/

/-- The tag and the bytes of an encoded form. -/
def showEncoded (e : Encoded) : Response where
  lines := [s!"{e.tag.name} {Hex.encode e.bytes}"]
  report :=
    .record [("hex", .text (Hex.encode e.bytes)), ("len", .number e.size), ("tag", .text e.tag.name)]

def showTerm (t : Term) : Response where
  lines := [t.text]
  report := .record [("value", .text t.text)]

/-- An identifier with what it tells and the IRI that carries it. -/
def showIdentifier (f : IdFactory) (id : Identifier) : Response :=
  let roles := f.roles id
  let iri := (Term.iri (IdFactory.mint id)).text
  { lines :=
      [id.hex, s!"kind={roles.kind.name} string={roles.string} numeric={roles.numeric}", iri]
    report :=
      .record [("id", .text id.hex), ("iri", .text iri), ("kind", .text roles.kind.name),
        ("numeric", .truth roles.numeric), ("string", .truth roles.string)] }

/-- The name of an order, filled up to five characters. -/
def orderColumn (order : Order) : String :=
  order.name ++ String.ofList (List.replicate (5 - order.name.length) ' ')

/-- The rows and qualifiers of cells. -/
def showCells (cells : List Cell) : Response where
  lines := cells.map fun c => s!"{orderColumn c.order} {Hex.encode c.row} {Hex.encode c.qualifier}"
  report := .list (cells.map fun c =>
    .record [("index", .text c.order.name), ("qualifier", .text (Hex.encode c.qualifier)),
      ("row", .text (Hex.encode c.row)), ("value_len", .number c.value.length)])

/-- A range of rows. -/
def showRange (r : ScanRange) : Response where
  lines := [s!"{r.order.name} {Hex.encode r.start} {Hex.encode r.stop}"]
  report :=
    .record [("index", .text r.order.name), ("start", .text (Hex.encode r.start)),
      ("stop", .text (Hex.encode r.stop))]

def showKeys (keys : List Bytes) : Response where
  lines := keys.map Hex.encode
  report := .list (keys.map fun key => .text (Hex.encode key))

/-- The role to split on: the one that is named, or the first one of the order. -/
def splitRole (order : Order) (name : Option String) : Except UsageError Role :=
  match name with
  | some name => Role.ofText name
  | none => .ok (order.roles.headD .subject)

def answer (l : Layout) : Command → Except RunFault Response
  | encode term => do return showEncoded (← l.factory.codec.encode (← Term.ofText term))
  | decode hex => do
    let bytes ← Hex.decode (String.ofList (trimBlanks hex.toList))
    return showTerm (← l.factory.codec.readValue bytes)
  | id term => do return showIdentifier l.factory (← l.factory.id (← Term.ofText term))
  | keys quad => do return showCells (← l.cells (← Quad.ofText quad))
  | partition order role count fork => do
    let order ← Order.ofText order
    let role ← splitRole order role
    return showRange (← l.partition order role count fork)
  | splits bits => do return showKeys (← Layout.regionSplits bits)

end Command

/-! ## Runs -/

/-- What a run of the program writes, and the status with which it ends. -/
structure Outcome where
  status : Nat
  output : String
  /-- The message, if there is one. -/
  message : Option String
deriving DecidableEq, Repr

namespace Outcome

/-- The run succeeds. -/
def success (output : String) : Outcome := ⟨0, output, none⟩

def failure (f : RunFault) : Outcome :=
  match f with
  | .error (.cut _) => ⟨101, "", none⟩
  | f => ⟨1, "", some ("error: " ++ f.message)⟩

/-- How the program is called. -/
def usageLine : String :=
  "usage: quadkey [--config FILE] [--format text|json] [--log-level FILTER] "
    ++ "encode TERM | decode HEX | id TERM | keys QUAD | "
    ++ "partition [--index ORDER] [--role ROLE] [--count N] [--fork N] | splits [--bits N]"

/-- The name and the version of the program. -/
def versionLine : String := "quadkey 0.4.0"

/-- The command line asks for no command. -/
def halt (h : Halt) : Outcome :=
  match h with
  | .usage => ⟨2, "", some usageLine⟩
  | .help => success (usageLine ++ "\n")
  | .version => success (versionLine ++ "\n")

end Outcome

/-- What a request is answered with, given the text of the file with the settings, or why it cannot be
read. -/
def Request.answer (r : Request) (settings : Option (Except String String)) :
    Except RunFault Response := do
  LogFilter.check r.logLevel
  let s ←
    match settings with
    | none => pure Settings.standard
    | some (.error reason) => throw (.file reason)
    | some (.ok text) => Settings.ofText text
  r.command.answer (← s.layout)

/-- What a run of the program writes. -/
def Request.run (r : Request) (settings : Option (Except String String)) : Outcome :=
  match r.answer settings with
  | .ok response => .success (response.render r.format)
  | .error f => .failure f

end RdfIndex
