import RdfIndex.Toml.Item

/-!
# Putting items into tables

A key that is already taken is refused, whatever its item.  A dotted key goes through tables that
dotted keys made, and makes them where they are missing.  A header goes through tables of any kind
but those between braces, and through the last row of an array of tables.

A dotted key cannot put anything into a table with a header of its own, nor directly into one that
lies on the way to such a table.
-/

namespace RdfIndex.Toml.Entries

/-- The table of a key that holds what `f` makes of the entries it held. -/
def update? (f : Entries → Option Entries) (entries : Entries) (key : String) (kind : TableKind)
    (inner : Entries) : Option Entries :=
  (f inner).map fun inner => entries.replace key (.table kind inner)

/-- The array of tables of a key whose last row holds what `f` makes of the entries it held. -/
def updateLast? (f : Entries → Option Entries) (entries : Entries) (key : String)
    (rows : List Entries) : Option Entries :=
  (f (rows.getLast?.getD [])).map fun row => entries.replace key (.tables (rows.dropLast ++ [row]))

/-- Puts an item under a dotted key. -/
def put? (item : Item) : List String → Entries → Option Entries
  | [], _ => none
  | [key], entries =>
    match entries.get? key with
    | none => some (entries ++ [(key, item)])
    | some _ => none
  | key :: next :: path, entries =>
    match entries.get? key with
    | none =>
      (put? item (next :: path) []).map fun inner => entries ++ [(key, .table .dotted inner)]
    | some (.table .dotted inner) => entries.update? (put? item (next :: path)) key .dotted inner
    | some (.table .passed inner) =>
      if path = [] then none else entries.update? (put? item (next :: path)) key .passed inner
    | some (.tables rows) =>
      if path = [] then none else entries.updateLast? (put? item (next :: path)) key rows
    | some _ => none

/-- Changes the table at the end of a path of headers. -/
def descend? (f : Entries → Option Entries) : List String → Entries → Option Entries
  | [], entries => f entries
  | key :: path, entries =>
    match entries.get? key with
    | none => (descend? f path []).map fun inner => entries ++ [(key, .table .passed inner)]
    | some (.table .closed _) => none
    | some (.table kind inner) => entries.update? (descend? f path) key kind inner
    | some (.tables rows) => entries.updateLast? (descend? f path) key rows
    | some _ => none

/-- A header states the table of a key.  A table on the way to another one can be stated once. -/
def state? (key : String) (entries : Entries) : Option Entries :=
  match entries.get? key with
  | none => some (entries ++ [(key, .table .stated [])])
  | some (.table .passed inner) => some (entries.replace key (.table .stated inner))
  | some _ => none

/-- A header adds a row to the array of tables of a key. -/
def addRow? (key : String) (entries : Entries) : Option Entries :=
  match entries.get? key with
  | none => some (entries ++ [(key, .tables [[]])])
  | some (.tables rows) => some (entries.replace key (.tables (rows ++ [[]])))
  | some _ => none

end RdfIndex.Toml.Entries
