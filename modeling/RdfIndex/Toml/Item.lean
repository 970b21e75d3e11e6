/-!
# Items of a TOML document

A document is a table: a list of keys, each with an item.  A table remembers how it came to be,
since that decides what the rest of the document may still put into it.  Floating-point numbers,
dates and times are told from other items but their values are not kept.
-/

namespace RdfIndex.Toml

/-- How a table came to be. -/
inductive TableKind where
  /-- By a header of its own. -/
  | stated
  /-- On the way to a table with a header. -/
  | passed
  /-- On the way of a dotted key. -/
  | dotted
  /-- In one piece, between braces. -/
  | closed
deriving DecidableEq, Repr

/-- An item. -/
inductive Item where
  | string (text : String)
  | integer (value : Int)
  | boolean (value : Bool)
  | float
  /-- A date, a time or both. -/
  | moment
  | array (items : List Item)
  | table (kind : TableKind) (entries : List (String × Item))
  /-- An array of tables, each with a header of its own. -/
  | tables (rows : List (List (String × Item)))

/-- The keys of a table with their items, in the order in which they came. -/
abbrev Entries := List (String × Item)

namespace Entries

def get? (entries : Entries) (key : String) : Option Item := entries.lookup key

/-- The item of a key takes the place of another. -/
def replace (entries : Entries) (key : String) (item : Item) : Entries :=
  entries.map fun (k, old) => (k, if k = key then item else old)

end Entries

end RdfIndex.Toml
