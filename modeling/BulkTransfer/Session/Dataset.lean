import BulkTransfer.ColumnType.Reader
import BulkTransfer.Json.Shape
import BulkTransfer.Literal.Conform
import BulkTransfer.Session.Basic
import BulkTransfer.Value.Json

/-!
Sessions from JSON documents:

    {"keyspace": "ks",
     "tables": {"ks.users": {"columns": [{"name": "id", "type": "int"}], "rows": [{"id": 1}]}}}
-/

namespace BulkTransfer

namespace Dataset

open Json

/-- A table of a document. -/
structure TableData where
  columns : List Column
  rows : List (List (String × Json))

/-- Reads the text of a column type. -/
def typeShape : Shape ColumnType := fun c =>
  match textShape c with
  | .error e => .error e
  | .ok (s, c) => match ColumnType.ofString? s with
    | some t => .ok (t, c)
    | none => .error (.unplaced (Failure.invalidInput (.unknownType s)).message c)

/-- Reads a column. -/
def columnShape : Shape Column :=
  pairShape "ColumnSpec" "name" "type" textShape (optional typeShape)
    (fun name? type? => match name? with
      | some name => .ok ⟨name, type?.join⟩
      | none => .error "missing field `name`")
    "invalid length 0, expected struct ColumnSpec with 2 elements"

/-- The levels of nesting that values of rows may have. -/
def valueRoom : Nat := maxNesting - 5

/-- Reads a row; of two fields with one name the last stays. -/
def rowShape : Shape (List (String × Json)) := fun c =>
  match mapShape (anyShape valueRoom) c with
  | .ok (fields, c) => .ok (Keyed.ofPairs fields, c)
  | .error e => .error e

/-- Reads a table. -/
def tableShape : Shape TableData :=
  pairShape "TableData" "columns" "rows" (listShape columnShape) (listShape rowShape)
    (fun columns? rows? => match columns? with
      | some columns => .ok ⟨columns, rows?.getD []⟩
      | none => .error "missing field `columns`")
    "invalid length 0, expected struct TableData with 2 elements"

/-- A document: its keyspace and its tables in order of their names. -/
abbrev Document := Option String × List (String × TableData)

/-- Reads a document. -/
def documentShape : Shape Document :=
  pairShape "Dataset" "keyspace" "tables" (optional textShape) (mapShape tableShape)
    (fun keyspace? tables? => .ok (keyspace?.join, Keyed.ofPairs (tables?.getD [])))
    ""

/-- The value of a field, fitted to its column. -/
def fieldValue (table : String) (columns : List Column) (name : String) (j : Json) :
    Except Failure Value :=
  match Column.find? columns name with
  | none => .error (.invalidInput (.unknownDatasetColumn table name))
  | some c => match c.type? with
    | none => .ok (Value.ofJson j)
    | some type => match (Value.ofJson j).conform type with
      | .ok v => .ok v
      | .error e => .error (.invalidInput (.badDatasetValue table name e))

/-- The row of fields. -/
def rowOf (table : String) (columns : List Column) :
    List (String × Json) → Row → Except Failure Row
  | [], row => .ok row
  | (name, j) :: more, row => match fieldValue table columns name j with
    | .ok v => rowOf table columns more (row.insert name v)
    | .error e => .error e

/-- Adds rows to a table. -/
def addRows (table : String) (columns : List Column) (s : Session) :
    List (List (String × Json)) → Except Failure Session
  | [] => .ok s
  | fields :: more => match rowOf table columns fields .empty with
    | .error e => .error e
    | .ok row => match s.insertRow table row with
      | .error e => .error e
      | .ok s => addRows table columns s more

/-- Adds tables to a session. -/
def addTables (s : Session) : List (String × TableData) → Except Failure Session
  | [] => .ok s
  | (name, t) :: more => match addRows name t.columns (s.createTable name t.columns) t.rows with
    | .error e => .error e
    | .ok s => addTables s more

end Dataset

/-- The session that a JSON document describes. -/
def Session.ofText (text : String) : Except Failure Session :=
  match Json.parseShape Dataset.documentShape text.toList with
  | .error e => .error (.invalidInput (.badDataset e))
  | .ok (keyspace?, tables) => Dataset.addTables (Session.new keyspace?) tables

end BulkTransfer
