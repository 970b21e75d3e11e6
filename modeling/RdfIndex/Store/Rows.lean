import RdfIndex.Bytes.Checked
import RdfIndex.Number.Total
import RdfIndex.Store.Cells
import Std.Data.TreeMap

/-!
# Cells by row

A store can keep its cells in a map of maps: its rows, each with the values of its qualifiers.  A
row goes with its last cell, so that the store is empty if and only if it has no row.

A map refuses a range whose start is after its stop.  So a scan asks for a range of rows only if the
start comes before the stop, and finds nothing otherwise.
-/

namespace RdfIndex

/-- The values of the qualifiers of a row. -/
abbrev RowCells := Std.TreeMap Bytes Bytes

/-- The cells of a row. -/
def RowCells.stored (row : Bytes) (cells : RowCells) : List StoredCell :=
  cells.toList.map fun (qualifier, value) => ⟨row, qualifier, value⟩

/-- The cells of some rows, one row after the other. -/
def RowCells.storedRows (rows : List (Bytes × RowCells)) : List StoredCell :=
  rows.flatMap fun (row, cells) => cells.stored row

/-- The rows from one on and before another one.  It stops the program if that is before the
first. -/
def Machine.rowRange (rows : Std.TreeMap Bytes RowCells) (start stop : Bytes) :
    Except Stop (List (Bytes × RowCells)) :=
  if stop < start then .error .outOfBounds else .ok rows[start...stop].toList

/-- A store of cells by row. -/
structure RowStore where
  rows : Std.TreeMap Bytes RowCells
  /-- Every row has a cell. -/
  inhabited : ∀ (row : Bytes) (cells : RowCells), rows[row]? = some cells → cells.isEmpty = false

namespace RowStore

/-- The store without cells. -/
def empty : RowStore := ⟨∅, by simp⟩

/-- The number of cells, row by row. -/
def size (s : RowStore) : Nat := total (fun (_, cells) => cells.size) s.rows.toList

/-- There is no row. -/
def isEmpty (s : RowStore) : Bool := s.rows.isEmpty

/-- The cells from a row on and before another row. -/
def scan (s : RowStore) (start stop : Bytes) : Except Stop (List StoredCell) := do
  if ¬ start < stop then return []
  return RowCells.storedRows (← Machine.rowRange s.rows start stop)

/-- The store with a value at a row and a qualifier. -/
def put (s : RowStore) (row qualifier value : Bytes) : RowStore where
  rows := s.rows.alter row fun cells => some ((cells.getD ∅).insert qualifier value)
  inhabited := by
    intro other cells h
    rw [Std.TreeMap.getElem?_alter] at h
    split at h
    · cases h
      exact Std.TreeMap.isEmpty_insert
    · exact s.inhabited other cells h

/-- The store with other cells in a row, which goes if there are none. -/
def setRow (s : RowStore) (row : Bytes) (cells : RowCells) : RowStore where
  rows := if cells.isEmpty then s.rows.erase row else s.rows.insert row cells
  inhabited := by
    intro other found h
    split at h
    · rw [Std.TreeMap.getElem?_erase] at h
      split at h
      · cases h
      · exact s.inhabited other found h
    · next hcells =>
      rw [Std.TreeMap.getElem?_insert] at h
      split at h
      · cases h
        exact Bool.not_eq_true _ ▸ hcells
      · exact s.inhabited other found h

/-- The store without a cell at a row and a qualifier, and whether there was one. -/
def delete (s : RowStore) (row qualifier : Bytes) : RowStore × Bool :=
  match s.rows[row]? with
  | none => (s, false)
  | some cells => (s.setRow row (cells.erase qualifier), cells.contains qualifier)

end RowStore

end RdfIndex
