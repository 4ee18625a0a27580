import BulkTransfer.Columnar.Physical
import BulkTransfer.Number.Binary64
import BulkTransfer.Options.Compression
import BulkTransfer.Text.Utf8

/-!
A finished columnar file: typed fields and groups of rows, stored column by column.
-/

namespace BulkTransfer.Columnar

/-- A stored value. Instants, dates and decimals are whole numbers whose meaning the physical type
gives. -/
inductive Cell where
  | null
  | int (i : Int)
  | float (x : Binary64)
  | bool (b : Bool)
  | bytes (b : Bytes)
  | text (s : String)
  | list (items : List Cell)
  | map (entries : List (Cell × Cell))
  | record (fields : List (String × Cell))
  deriving Repr, Inhabited

/-- A column of a file. -/
structure Field where
  name : String
  physical : Physical
  /-- The declared column type, if the file keeps it. -/
  declared? : Option String
  deriving Repr, Inhabited

/-- Rows that were written together. -/
structure RowGroup where
  size : Nat
  /-- For each field of the file the cells of its column, as many as there are rows. -/
  columns : List (List Cell)
  deriving Repr, Inhabited

/-- A finished columnar file. -/
structure File where
  fields : List Field
  codec : Compression
  groups : List RowGroup
  deriving Repr, Inhabited

/-- The cells of a group row by row. -/
def rowsOf (columns : List (List Cell)) : Nat → List (List Cell)
  | 0 => []
  | n + 1 => columns.map (fun c => c.headD .null) :: rowsOf (columns.map List.tail) n

namespace File

/-- A file without a codec that holds columns in one group, or in none where there are no rows. -/
def ofColumns (columns : List (Field × List Cell)) : File :=
  let cells := columns.map Prod.snd
  let size := (cells.headD []).length
  ⟨columns.map Prod.fst, .none, if size = 0 then [] else [⟨size, cells⟩]⟩

/-- All rows in order, each with a cell for each field. -/
def rows (f : File) : List (List Cell) := f.groups.flatMap fun g => rowsOf g.columns g.size

end File

end BulkTransfer.Columnar
