import BulkTransfer.Column
import BulkTransfer.Delimited.Record
import BulkTransfer.Literal.Printer
import BulkTransfer.Row

/-!
Writing rows as delimited text: a field for each column, with a header line where asked for.
-/

namespace BulkTransfer.Delimited

/-- A writer of delimited text. -/
structure Writer where
  dialect : Dialect
  nullToken : String
  columns : List Column
  /-- The lines written, last one first. -/
  lines : List Bytes
  rows : Nat

namespace Writer

/-- The line of a row; absent columns are null. -/
def lineOf (w : Writer) (row : Row) : Bytes :=
  w.dialect.encodeRecord (w.columns.map fun c =>
    Bytes.ofText ((row.getD c.name).field w.nullToken c.name c.type?))

/-- A writer that has written the header, if the settings ask for it. -/
def withSettings (columns : List Column) (settings : Settings) : Writer :=
  let header := if settings.header then
    [settings.dialect.encodeRecord (columns.map fun c => Bytes.ofText c.name)] else []
  ⟨settings.dialect, settings.nullToken, columns, header, 0⟩

/-- A writer by the settings of options. -/
def new (columns : List Column) (options : Options) : Writer :=
  withSettings columns (.ofOptions options)

/-- Writes a row. -/
def write (w : Writer) (row : Row) : Writer :=
  { w with lines := w.lineOf row :: w.lines, rows := w.rows + 1 }

/-- All bytes written. -/
def output (w : Writer) : Bytes := w.lines.reverse.flatten

end Writer

end BulkTransfer.Delimited
