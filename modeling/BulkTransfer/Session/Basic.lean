import BulkTransfer.Literal.Reader
import BulkTransfer.Session.Statement

/-!
A session over tables in memory. Tables are only added to. Literals of inserted rows are read by
the types of the columns, so that a value which does not fit its column is rejected. Failures of
writes and queries can be asked for.
-/

namespace BulkTransfer

/-- A table: its columns and rows. -/
structure Table where
  columns : List Column
  /-- The rows, last one first. -/
  newestRows : List Row
  deriving Inhabited

/-- The rows of a table in order. -/
def Table.rows (t : Table) : List Row := t.newestRows.reverse

/-- The failures that are asked for. -/
structure FailurePlan where
  allWrites : Bool
  /-- Texts of which one in a statement makes it fail. -/
  writesWith : List String
  /-- The number of rows after which a query fails. -/
  queryAfter? : Option Nat

/-- A session. -/
structure Session where
  /-- Tables under their full names in lower case. -/
  tables : Keyed Table
  /-- The keyspace of tables named without one. -/
  keyspace? : Option String
  plan : FailurePlan
  /-- Write statements received, with those that failed. -/
  statements : Nat

/-- What takes write statements one after the other and answers each with success or a failure. -/
class WriteSession (σ : Type) where
  execute : σ → String → σ × Except Failure Unit

/-- The answer to a query. -/
structure QueryResult where
  columns : List Column
  /-- Rows; a failure ends them. -/
  rows : List (Except Failure Row)

namespace Session

/-- A session without tables. -/
def new (keyspace? : Option String) : Session := ⟨[], keyspace?, ⟨false, [], none⟩, 0⟩

/-- The full name of a table in lower case. -/
def qualify (s : Session) (table : String) : String :=
  let (keyspace?, name) := splitTable table
  match keyspace? <|> s.keyspace? with
  | some keyspace => Text.lowered (keyspace ++ "." ++ name)
  | none => Text.lowered name

/-- Makes a table, in place of one of the same name. -/
def createTable (s : Session) (table : String) (columns : List Column) : Session :=
  { s with tables := s.tables.insert (s.qualify table) ⟨columns, []⟩ }

/-- The table of a name. -/
def table? (s : Session) (table : String) : Except Failure (String × Table) :=
  let key := s.qualify table
  match s.tables.get? key with
  | some t => .ok (key, t)
  | none => .error (.execution (.unconfiguredTable key))

/-- Adds a row to a table under its full name. -/
def push (s : Session) (key : String) (t : Table) (row : Row) : Session :=
  { s with tables := s.tables.insert key { t with newestRows := row :: t.newestRows } }

/-- Adds a row to a table. -/
def insertRow (s : Session) (table : String) (row : Row) : Except Failure Session :=
  match s.table? table with
  | .error e => .error e
  | .ok (key, t) => .ok (s.push key t row)

/-- The rows of a table; an unknown one has none. -/
def rows (s : Session) (table : String) : List Row :=
  match s.tables.get? (s.qualify table) with
  | some t => t.rows
  | none => []

/-- The columns of a table, if it is known. -/
def columns? (s : Session) (keyspace? : Option String) (table : String) : Option (List Column) :=
  let name := match keyspace? with
    | some keyspace => keyspace ++ "." ++ table
    | none => table
  (s.tables.get? (s.qualify name)).map Table.columns

/-- The names of all tables in order. -/
def tableNames (s : Session) : List String := s.tables.keys

/-! ## Queries -/

/-- The columns of names, each of which the table must have. -/
def selectColumns (table : List Column) : List String → Except Failure (List Column)
  | [] => .ok []
  | name :: more => match Column.find? table name with
    | none => .error (.execution (.undefinedColumn name))
    | some c => match selectColumns table more with
      | .ok rest => .ok (c :: rest)
      | .error e => .error e

/-- The columns that a projection selects. -/
def projected (table : List Column) (projection : List Char) : Except Failure (List Column) :=
  if Text.trim projection = ['*'] then .ok table
  else selectColumns table (Statement.names projection)

/-- Rows up to the failure that is asked for. -/
def cutRows (after? : Option Nat) (rows : List Row) : List (Except Failure Row) :=
  match after? with
  | none => rows.map .ok
  | some n =>
    (rows.take n).map .ok ++
      if n < rows.length then [.error (.execution (.readFailure n))] else []

/-- Rows up to a limit, if it is one of 64 bits. -/
def limitRows (limit? : Option (List Char)) (rows : List Row) : List Row :=
  match limit?.bind Integer.readUnsigned? with
  | some n => rows.take n
  | none => rows

/-- Answers a query. -/
def query (s : Session) (statement : String) : Except Failure QueryResult :=
  match Statement.query? statement.toList with
  | none => .error (.execution (.unsupportedQuery statement))
  | some q => match s.table? (String.ofList q.table) with
    | .error e => .error e
    | .ok (_, t) => match projected t.columns q.projection with
      | .error e => .error e
      | .ok columns =>
        let names := columns.map Column.name
        let rows := (limitRows q.limit? t.rows).map fun r => r.project names
        .ok ⟨columns, cutRows s.plan.queryAfter? rows⟩

/-! ## Writes -/

/-- The failure that is asked for of a statement. -/
def plannedFault? (s : Session) (statement : String) : Option ExecutionFault :=
  if s.plan.allWrites then some .writeTimeout
  else (s.plan.writesWith.find? fun p => Text.occursIn p.toList statement.toList).map .writeFailure

/-- The types of names, each of which the table must have. -/
def typesOf (table : List Column) (names : List String) :
    Except Failure (List (Option ColumnType)) :=
  (selectColumns table names).map fun columns => columns.map Column.type?

/-- The table under its full name and the row that a statement inserts. -/
def insertion (s : Session) (statement : String) : Except Failure (String × Table × Row) :=
  match s.plannedFault? statement with
  | some fault => .error (.execution fault)
  | none => match Statement.insertion? statement.toList with
    | none => .error (.execution (.unsupportedStatement statement))
    | some i =>
      let names := Statement.names i.columns
      match s.table? (String.ofList i.table) with
      | .error e => .error e
      | .ok (key, t) => match typesOf t.columns names with
        | .error e => .error e
        | .ok types => match Literal.parseValues i.values types with
          | .error e => .error (.execution (.invalidValues e))
          | .ok values => .ok (key, t, Row.ofFields (names.zip values))

/-- Executes a write statement. -/
def execute (s : Session) (statement : String) : Session × Except Failure Unit :=
  let counted := { s with statements := s.statements + 1 }
  match s.insertion statement with
  | .error e => (counted, .error e)
  | .ok (key, t, row) => (counted.push key t row, .ok ())

instance : WriteSession Session := ⟨execute⟩

end Session

end BulkTransfer
