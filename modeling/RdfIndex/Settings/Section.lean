import RdfIndex.Toml.Item

/-!
# Sections of a settings text

A section lists its fields.  It may be given as a table, where the fields have names, or as an array,
where they have places.  A table may leave out any field but must not have another key.  An array may
leave out the last fields if they are omissible; what it has beyond the last field does not count.
-/

namespace RdfIndex

namespace Toml.Item

/-- The text of a string. -/
def string? : Item → Option String
  | .string text => some text
  | _ => none

/-- The value of an integer that is not negative. -/
def natural? : Item → Option Nat
  | .integer i => if 0 ≤ i then some i.toNat else none
  | _ => none

/-- The value of a truth value. -/
def boolean? : Item → Option Bool
  | .boolean b => some b
  | _ => none

/-- The items of an array. -/
def items? : Item → Option (List Item)
  | .array items => some items
  | .tables rows => some (rows.map (.table .stated))
  | _ => none

end Toml.Item

/-- A field of a section. -/
structure Field where
  name : String
  /-- An array may end before it. -/
  omissible : Bool
deriving DecidableEq, Repr

namespace Section

/-- The items of fields that are given by name. -/
def byName? (fields : List Field) (entries : Toml.Entries) : Option (List (Option Toml.Item)) :=
  if entries.all fun (key, _) => fields.any fun f => f.name == key then
    some (fields.map fun f => entries.get? f.name)
  else none

/-- The items of fields that are given by place. -/
def byPlace? : List Field → List Toml.Item → Option (List (Option Toml.Item))
  | [], _ => some []
  | _ :: fields, item :: items => (byPlace? fields items).map (some item :: ·)
  | f :: fields, [] => if f.omissible then (byPlace? fields []).map (none :: ·) else none

/-- The items of the fields of a section. -/
def read? (fields : List Field) (item : Toml.Item) : Option (List (Option Toml.Item)) :=
  match item with
  | .table _ entries => byName? fields entries
  | item => item.items?.bind (byPlace? fields)

/-- The items of the fields of a section that may be missing as a whole. -/
def readOr? (fields : List Field) (item : Option Toml.Item) : Option (List (Option Toml.Item)) :=
  match item with
  | none => some (fields.map fun _ => none)
  | some item => read? fields item

end Section

end RdfIndex
