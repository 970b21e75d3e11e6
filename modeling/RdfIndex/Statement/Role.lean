/-!
# Roles and orders

A statement has four roles.  A row order lists the roles that a row holds, in turn.  Each order has
a number, which is the first byte of its rows.
-/

namespace RdfIndex

/-- A position in a statement. -/
inductive Role where
  | subject
  | predicate
  | object
  | context
deriving DecidableEq, Repr

namespace Role

/-- All roles. -/
def all : List Role := [subject, predicate, object, context]

def name : Role → String
  | subject => "subject"
  | predicate => "predicate"
  | object => "object"
  | context => "context"

/-- The role of a name or of its initial, in any letter case.  The context is also the graph. -/
def ofName? (name : String) : Option Role :=
  match String.ofList (name.toList.map Char.toLower) with
  | "s" => some subject
  | "subject" => some subject
  | "p" => some predicate
  | "predicate" => some predicate
  | "o" => some object
  | "object" => some object
  | "c" => some context
  | "context" => some context
  | "g" => some context
  | "graph" => some context
  | _ => none

end Role

/-- A row order. -/
inductive Order where
  | spo
  | pos
  | osp
  | cspo
  | cpos
  | cosp
deriving DecidableEq, Repr

namespace Order

/-- All orders by number. -/
def all : List Order := [spo, pos, osp, cspo, cpos, cosp]

/-- The number of an order, the first byte of its rows. -/
def number : Order → Nat
  | spo => 0
  | pos => 1
  | osp => 2
  | cspo => 3
  | cpos => 4
  | cosp => 5

/-- The roles of a row, in turn. -/
def roles : Order → List Role
  | spo => [.subject, .predicate, .object]
  | pos => [.predicate, .object, .subject]
  | osp => [.object, .subject, .predicate]
  | cspo => [.context, .subject, .predicate, .object]
  | cpos => [.context, .predicate, .object, .subject]
  | cosp => [.context, .object, .subject, .predicate]

/-- An order whose rows hold the context. -/
def hasContext : Order → Bool
  | spo => false
  | pos => false
  | osp => false
  | cspo => true
  | cpos => true
  | cosp => true

/-- The place of a role in a row. -/
def position? (order : Order) (role : Role) : Option Nat := order.roles.findIdx? (· == role)

/-- The name of an order: the initials of its roles. -/
def name : Order → String
  | spo => "SPO"
  | pos => "POS"
  | osp => "OSP"
  | cspo => "CSPO"
  | cpos => "CPOS"
  | cosp => "COSP"

def ofNumber? (number : Nat) : Option Order := all[number]?

/-- The order of a name in any letter case. -/
def ofName? (name : String) : Option Order :=
  all.find? fun order => order.name == String.ofList (name.toList.map Char.toUpper)

end Order

end RdfIndex
