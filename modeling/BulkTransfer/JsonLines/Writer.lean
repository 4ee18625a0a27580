import BulkTransfer.Column
import BulkTransfer.Row
import BulkTransfer.Value.Json

/-!
Writing rows as JSON: one object a line, its fields in the order of the columns.
-/

namespace BulkTransfer.JsonLines

/-- A writer of JSON lines. -/
structure Writer where
  columns : List Column
  /-- The lines written, last one first. -/
  lines : List Bytes
  rows : Nat

namespace Writer

/-- The object of a row, with its fields in column order; absent columns are null. -/
def objectText (columns : List Column) (row : Row) : List Char :=
  '{' :: Json.renderFields (columns.map fun c => (c.name, (row.getD c.name).toJson)) ++ ['}']

/-- The line of a row. -/
def lineOf (w : Writer) (row : Row) : Bytes :=
  Bytes.ofText (String.ofList (objectText w.columns row ++ ['\n']))

/-- A writer that has written nothing. -/
def new (columns : List Column) : Writer := ⟨columns, [], 0⟩

/-- Writes a row. -/
def write (w : Writer) (row : Row) : Writer :=
  { w with lines := w.lineOf row :: w.lines, rows := w.rows + 1 }

/-- All bytes written. -/
def output (w : Writer) : Bytes := w.lines.reverse.flatten

end Writer

end BulkTransfer.JsonLines
