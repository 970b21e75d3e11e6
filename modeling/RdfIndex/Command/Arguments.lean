import RdfIndex.Number.Numeral

/-!
# Command lines

A command line names a command, with options and arguments after it.  The common options may stand
before the command or after it; where both are given, the one after the command counts.  An option
takes a value, after an equals sign or as the next argument, and may be given once on each side of the
command.  An argument that starts with a hyphen is an option, unless it is the hyphen alone.  After
`--` nothing is an option.

`Request.ofArguments` reads a command line from left to right and stops where it goes wrong, or where
it asks for help or for the version.
-/

namespace RdfIndex

/-- What the answer of a command is written as. -/
inductive OutputFormat where
  /-- Lines of text. -/
  | text
  | json
deriving DecidableEq, Repr

def OutputFormat.ofName? (name : String) : Option OutputFormat :=
  match name with
  | "text" => some .text
  | "json" => some .json
  | _ => none

/-- A command. -/
inductive Command where
  /-- The encoded form of a term. -/
  | encode (term : String)
  /-- The term of an encoded form in hexadecimal. -/
  | decode (hex : String)
  /-- The identifier of a term. -/
  | id (term : String)
  /-- The rows and qualifiers of a statement. -/
  | keys (quad : String)
  /-- A fork of all rows of an order. -/
  | partition (order : String) (role : Option String) (count fork : Nat)
  /-- The keys that split the rows into regions. -/
  | splits (bits : Nat)
deriving DecidableEq, Repr

/-- What a command line asks for. -/
structure Request where
  /-- The file with the settings. -/
  config : Option String
  /-- What the answer is written as. -/
  format : OutputFormat
  /-- The log filter. -/
  logLevel : String
  command : Command
deriving DecidableEq, Repr

/-- Why a command line asks for no command. -/
inductive Halt where
  /-- It is malformed. -/
  | usage
  | help
  | version
deriving DecidableEq, Repr

namespace Arguments

/-! ## Options -/

/-- An option. -/
inductive Opt where
  | config
  | format
  | logLevel
  | order
  | role
  | count
  | fork
  | bits
deriving DecidableEq, Repr

def Opt.name : Opt → String
  | config => "config"
  | format => "format"
  | logLevel => "log-level"
  | order => "index"
  | role => "role"
  | count => "count"
  | fork => "fork"
  | bits => "bits"

/-- A natural number of 64 bits, which may have a plus sign. -/
def readSize? (value : String) : Option Nat :=
  let ds :=
    match value.toList with
    | '+' :: ds => ds
    | ds => ds
  (Numeral.read? ds).filter (· < 0x10000000000000000)

/-- A natural number of 32 bits, which may have a plus sign.  Zero may have a hyphen. -/
def readBits? (value : String) : Option Nat :=
  match value.toList with
  | '+' :: ds => (Numeral.read? ds).filter (· < 0x100000000)
  | '-' :: ds => (Numeral.read? ds).filter (· == 0)
  | ds => (Numeral.read? ds).filter (· < 0x100000000)

/-- A value can be given to an option. -/
def Opt.accepts (o : Opt) (value : String) : Bool :=
  match o with
  | config => value != ""
  | format => (OutputFormat.ofName? value).isSome
  | logLevel => true
  | order => true
  | role => true
  | count => (readSize? value).isSome
  | fork => (readSize? value).isSome
  | bits => (readBits? value).isSome

/-! ## Levels -/

/-- A command to be named. -/
inductive CommandName where
  | encode
  | decode
  | id
  | keys
  | partition
  | splits
deriving DecidableEq, Repr

def CommandName.ofText? (name : String) : Option CommandName :=
  match name with
  | "encode" => some .encode
  | "decode" => some .decode
  | "id" => some .id
  | "keys" => some .keys
  | "partition" => some .partition
  | "splits" => some .splits
  | _ => none

/-- The two sides of a command. -/
inductive Level where
  /-- Before the command. -/
  | before
  | after (command : CommandName)
deriving DecidableEq, Repr

/-- The options on both sides of a command. -/
def commonOptions : List Opt := [.config, .format, .logLevel]

def Level.options : Level → List Opt
  | after .partition => commonOptions ++ [.order, .role, .count, .fork]
  | after .splits => commonOptions ++ [.bits]
  | _ => commonOptions

/-- The number of arguments of a level that are no options. -/
def Level.places : Level → Nat
  | before => 0
  | after .encode => 1
  | after .decode => 1
  | after .id => 1
  | after .keys => 1
  | after .partition => 0
  | after .splits => 0

/-- What is given on one side of a command. -/
structure Given where
  /-- The options with their values. -/
  options : List (Opt × String)
  /-- The other arguments. -/
  others : List String
deriving DecidableEq, Repr

namespace Given

def nothing : Given := ⟨[], []⟩

/-- The value of an option. -/
def get? (g : Given) (o : Opt) : Option String := g.options.lookup o

/-- An option is given, for the first time and with a value that it takes. -/
def addOption (g : Given) (o : Opt) (value : String) : Except Halt Given :=
  if (g.get? o).isNone && o.accepts value then
    .ok { g with options := g.options ++ [(o, value)] }
  else .error .usage

/-- Another argument is given, if the level has a place for it. -/
def addOther (g : Given) (level : Level) (value : String) : Except Halt Given :=
  if g.others.length < level.places then .ok { g with others := g.others ++ [value] }
  else .error .usage

end Given

/-- How an argument is to be read. -/
inductive Argument where
  /-- What ends the options. -/
  | separator
  /-- An option with its name and the value after an equals sign. -/
  | long (name : String) (value : Option String)
  /-- One hyphen with a letter after it. -/
  | short (letter : Char)
  /-- Anything else. -/
  | other
deriving DecidableEq, Repr

/-- How an argument is to be read. -/
def Argument.of (arg : String) : Argument :=
  match arg.toList with
  | ['-', '-'] => .separator
  | '-' :: '-' :: cs =>
    let name := String.ofList (cs.takeWhile (· != '='))
    match cs.dropWhile (· != '=') with
    | [] => .long name none
    | _ :: value => .long name (some (String.ofList value))
  | '-' :: c :: _ => .short c
  | _ => .other

/-- Help and the version can be asked for, the version only before the command. -/
def Level.haltOf? (level : Level) (a : Argument) : Option Halt :=
  match a with
  | .long "help" none => some .help
  | .short 'h' => some .help
  | .long "version" none => if level = .before then some .version else none
  | .short 'V' => if level = .before then some .version else none
  | _ => none

/-- What stands after the options of a level when they end at a command. -/
structure Rest where
  command : CommandName
  /-- The arguments after it. -/
  args : List String

/-- Reads the arguments after `--`. -/
def readOthers (level : Level) (g : Given) (args : List String) : Except Halt Given :=
  args.foldlM (fun g arg => g.addOther level arg) g

/-- Reads the arguments of a level up to a command, or up to their end.  `pending` is an option that
has no value yet. -/
def readLevel (level : Level) (pending : Option Opt) (g : Given) :
    List String → Except Halt (Given × Option Rest)
  | [] => if pending.isNone then .ok (g, none) else .error .usage
  | arg :: args =>
    match pending, Argument.of arg with
    | some o, .other => do readLevel level none (← g.addOption o arg) args
    | some _, _ => .error .usage
    | none, .separator => do return (← readOthers level g args, none)
    | none, .other =>
      match (if level = .before then CommandName.ofText? arg else none) with
      | some command => .ok (g, some ⟨command, args⟩)
      | none => do readLevel level none (← g.addOther level arg) args
    | none, a =>
      match level.haltOf? a, a with
      | some halt, _ => .error halt
      | none, .long name value =>
        match level.options.find? (·.name == name), value with
        | none, _ => .error .usage
        | some o, none => if (g.get? o).isNone then readLevel level (some o) g args else .error .usage
        | some o, some value => do readLevel level none (← g.addOption o value) args
      | none, _ => .error .usage

/-! ## Requests -/

/-- The command that is asked for, if nothing is missing. -/
def command? (name : CommandName) (g : Given) : Option Command := do
  match name with
  | .encode => return .encode (← g.others.head?)
  | .decode => return .decode (← g.others.head?)
  | .id => return .id (← g.others.head?)
  | .keys => return .keys (← g.others.head?)
  | .partition =>
    return .partition ((g.get? .order).getD "SPO") (g.get? .role)
      (((g.get? .count).bind readSize?).getD 2) (((g.get? .fork).bind readSize?).getD 0)
  | .splits => return .splits (((g.get? .bits).bind readBits?).getD 1)

/-- The value of a common option. -/
def common? (before after : Given) (o : Opt) : Option String :=
  (after.get? o).or (before.get? o)

end Arguments

namespace Request

open Arguments

/-- What a command line asks for. -/
def ofArguments (args : List String) : Except Halt Request := do
  match ← readLevel .before none .nothing args with
  | (_, none) => throw .usage
  | (before, some rest) =>
    let (after, _) ← readLevel (.after rest.command) none .nothing rest.args
    match command? rest.command after with
    | none => throw .usage
    | some command =>
      return {
        config := common? before after .config
        format := ((common? before after .format).bind OutputFormat.ofName?).getD .text
        logLevel := (common? before after .logLevel).getD "warn"
        command }

end Request

end RdfIndex
