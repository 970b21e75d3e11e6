import RdfIndex.Error
import RdfIndex.Number.Numeral
import RdfIndex.Text.Alphanumeric
import RdfIndex.Text.Blank

/-!
# Log filters

A log filter is a list of directives with commas between them; empty ones do not count.  A directive
is a target, a span with fields, or both, and may set a level after an equals sign; or it is a level
alone, which cannot be told from a target.  A directive is

* a target that starts with an alphanumeric character, a hyphen, a colon or an underscore,
* then, or instead, a span between brackets, which ends in fields between braces if it has any,
* then `=` and a level, which may be empty.

The parts are found in the directive without the white space around it, but each is cut out at the
same bytes of the directive as it is.  So a directive with white space around it cannot set a level,
and one that starts with white space beyond ASCII may be cut inside a character, which is a fault of
its own.  What a part says is not looked into, that of a level apart.
-/

namespace RdfIndex.LogFilter

open Alphanumeric (isAlphanumeric)

def levelNames : List String := ["error", "warn", "info", "debug", "trace", "off"]

/-- A level by name, in any letter case, or by a number up to five, which may have a plus sign. -/
def isLevel (level : List Char) : Bool :=
  let ds :=
    match level with
    | '+' :: ds => ds
    | ds => ds
  (Numeral.read? ds).any (· ≤ 5) || levelNames.contains (String.ofList (level.map Char.toLower))

/-- A character that a target may start with. -/
def startsTarget (c : Char) : Bool := c == '-' || c == ':' || c == '_' || isAlphanumeric c

/-- The refusal of a directive. -/
def refused (fault : LogFilterFault) : Error := .config (.logFilter fault)

/-! ## Parts -/

/-- The characters of a directive from a byte on. -/
def charsFrom (directive : List Char) (index : Nat) : Except InsideCharacter (List Char) :=
  match Utf8.charsFrom? index directive with
  | some cs => .ok cs
  | none => .error ⟨index⟩

/-- A part of a directive can be cut out. -/
def checkPart (directive : List Char) (first stop : Nat) : Except InsideCharacter Unit := do
  let _ ← charsFrom directive first
  let _ ← charsFrom directive stop
  return ()

/-- Where the reader of a directive stands.  A part starts with the byte `first`. -/
inductive State where
  /-- Before the directive. -/
  | start
  /-- In a target, or in a level alone. -/
  | target
  | span (first : Nat)
  /-- In the fields of a span. -/
  | fields (first : Nat)
  /-- After the fields of a span. -/
  | fieldsEnd
  /-- After a span. -/
  | spanEnd
deriving DecidableEq, Repr

/-- Where the reader stands after the character at byte `index`.  A part that the character ends is
cut out. -/
def State.next (directive : List Char) (s : State) (index : Nat) (c : Char) :
    Except Error State := do
  match s with
  | .start =>
    if c = '[' then return .span (index + 1)
    if startsTarget c then return .target
    throw (refused .directive)
  | .target =>
    if c ≠ '[' then return .target
    checkPart directive 0 index
    return .span (index + 1)
  | .span first =>
    if c ≠ ']' ∧ c ≠ '\x7b' then return .span first
    checkPart directive first index
    return if c = ']' then .spanEnd else .fields (index + 1)
  | .fields first =>
    if c ≠ '\x7d' then return .fields first
    checkPart directive first index
    if first = index then throw (refused .directive)
    return .fieldsEnd
  | .fieldsEnd => if c = ']' then return .spanEnd else throw (refused .directive)
  | .spanEnd => throw (refused .directive)

/-- A directive can end there, or go on with a level. -/
def State.complete (s : State) : Bool := s == .target || s == .spanEnd

/-! ## Directives -/

/-- The byte at which the level of a directive starts, or nothing if it sets none.  The reader stands
at byte `index` and has the rest before it. -/
def levelIndex (directive : List Char) (index : Nat) (s : State) :
    List Char → Except Error (Option Nat)
  | [] => if s.complete then .ok none else .error (refused .directive)
  | c :: cs => do
    if c = '=' ∧ s.complete then
      if s = .target then checkPart directive 0 index
      return some (index + 1)
    levelIndex directive (index + Utf8.charSize c) (← s.next directive index c) cs

/-- A directive must be well-formed and its level must be one. -/
def checkDirective (directive : List Char) : Except Error Unit := do
  match ← levelIndex directive 0 .start (trimBlanks directive) with
  | none => return ()
  | some index =>
    let level ← charsFrom directive index
    if level = [] ∨ isLevel level then return () else throw (refused .level)

def directives (filter : String) : List (List Char) :=
  (filter.toList.splitOnP (· == ',')).filter (· != [])

/-- Every directive of a filter must be well-formed. -/
def check (filter : String) : Except Error Unit := (directives filter).forM checkDirective

end RdfIndex.LogFilter
