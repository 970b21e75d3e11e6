import RdfIndex.Identifier.Basic
import RdfIndex.Statement.Role

/-!
# Identifiers of statements, and patterns

A statement has an identifier for each of its terms.  A pattern binds some roles to identifiers and
leaves the others open.
-/

namespace RdfIndex

/-- The identifiers of a statement. -/
structure StatementIds where
  subject : Identifier
  predicate : Identifier
  object : Identifier
  /-- The identifier of the context.  The default graph has none. -/
  context : Option Identifier
deriving DecidableEq, Repr

def StatementIds.get? (ids : StatementIds) : Role → Option Identifier
  | .subject => some ids.subject
  | .predicate => some ids.predicate
  | .object => some ids.object
  | .context => ids.context

/-- The identifiers to which roles are bound. -/
structure Pattern where
  subject : Option Identifier
  predicate : Option Identifier
  object : Option Identifier
  /-- What the context is bound to. -/
  context : Option Identifier
deriving DecidableEq, Repr

namespace Pattern

/-- The pattern that binds nothing. -/
def open_ : Pattern := ⟨none, none, none, none⟩

/-- What a role is bound to. -/
def get? (p : Pattern) : Role → Option Identifier
  | .subject => p.subject
  | .predicate => p.predicate
  | .object => p.object
  | .context => p.context

/-- A role is bound. -/
def binds (p : Pattern) (role : Role) : Bool := (p.get? role).isSome

/-- An open role matches everything, a bound one only what it is bound to. -/
def agrees (bound found : Option Identifier) : Bool := bound.all fun id => found == some id

/-- The identifiers of a statement agree with all bound roles.  A bound context does not match the
default graph. -/
def covers (p : Pattern) (ids : StatementIds) : Bool :=
  agrees p.subject (some ids.subject) && agrees p.predicate (some ids.predicate)
    && agrees p.object (some ids.object) && agrees p.context ids.context

/-- An order whose rows start with the bound roles. -/
def order (p : Pattern) : Order :=
  match p.binds .context, p.binds .subject, p.binds .predicate, p.binds .object with
  | false, false, true, _ => .pos
  | false, _, false, true => .osp
  | false, _, _, _ => .spo
  | true, false, true, _ => .cpos
  | true, _, false, true => .cosp
  | true, _, _, _ => .cspo

/-- The bound roles come first in an order, and none of them is missing there. -/
def leads (p : Pattern) (order : Order) : Bool :=
  (order.hasContext || !p.binds .context) && (order.roles.dropWhile p.binds).all (!p.binds ·)

end Pattern

end RdfIndex
