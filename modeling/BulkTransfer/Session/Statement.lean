import BulkTransfer.Column
import BulkTransfer.Literal.Printer
import BulkTransfer.Row
import BulkTransfer.Text.Numeral
import BulkTransfer.Transfer.Command

/-!
The two statements of a session, written and read:

    SELECT <columns> FROM <table> [LIMIT <n>]
    INSERT INTO <table> (<columns>) VALUES (<literals>)
-/

namespace BulkTransfer.Statement

open Text Text.Pattern

/-! ## Writing -/

/-- Names as a statement lists them. -/
def nameList (names : List String) : String :=
  joined ", " (names.map fun n => String.ofList (quoteName n.toList))

/-- The query for columns of a table, all where none are named. -/
def select (table : String) (columns : List String) (limit? : Option Nat) : String :=
  let projection := if columns.isEmpty then "*" else nameList columns
  let query := "SELECT " ++ projection ++ " FROM " ++ table
  match limit? with
  | some n => query ++ " LIMIT " ++ Integer.natText n
  | none => query

/-- The start of a statement that inserts a row, up to its values. -/
def insertStart (table : String) (columns : List Column) : String :=
  "INSERT INTO " ++ table ++ " (" ++ nameList (columns.map Column.name) ++ ") VALUES ("

/-- The literal of a column; absent columns are null. -/
def columnLiteral (row : Row) (c : Column) : String :=
  match row.get? c.name with
  | none => "null"
  | some v => v.statementText c.name c.type?

/-- The statement that inserts a row, behind the given start. -/
def insert (start : String) (columns : List Column) (row : Row) : String :=
  start ++ joined ", " (columns.map (columnLiteral row)) ++ ")"

/-! ## Reading -/

/-- The pieces of a query. -/
structure Query where
  projection : List Char
  table : List Char
  limit? : Option (List Char)

/-- The limit, if there is one, and the end. -/
def matchLimit (make : Option (List Char) → Query) : Next Query := fun s =>
  orElse
    (someBlanks (keyword "LIMIT".toList (someBlanks (greedySome isNumeral fun digits =>
      finish (make (some digits))))) s)
    fun _ => finish (make none) s

/-- Reads a query. -/
def query? : Next Query :=
  blanks (keyword "SELECT".toList (someBlanks (fewestSome fun projection =>
    someBlanks (keyword "FROM".toList (someBlanks (greedySome Command.isTableChar fun table =>
      matchLimit fun limit? => ⟨projection, table, limit?⟩))))))

/-- The pieces of a statement that inserts a row. -/
structure Insertion where
  table : List Char
  columns : List Char
  /-- The values with their brackets. -/
  values : List Char

/-- Values in brackets, of which the last closing one is meant, and the end. -/
def matchValues (make : List Char → Insertion) : Next Insertion :=
  mark '(' (greedy (fun _ => true) fun inner =>
    mark ')' (finish (make ('(' :: inner ++ [')']))))

/-- The table with its columns in brackets, and what follows them. -/
def matchTable : Next Insertion :=
  greedySome Command.isTableChar fun table => blanks (mark '('
    (greedy (· != ')') fun columns => mark ')' (blanks (keyword "VALUES".toList
      (blanks (matchValues fun values => ⟨table, columns, values⟩))))))

/-- Reads a statement that inserts a row. -/
def insertion? : Next Insertion :=
  blanks (keyword "INSERT".toList (someBlanks (keyword "INTO".toList (someBlanks matchTable))))

/-- A match names its table by a run of table characters, behind which the columns come in brackets,
with no closing bracket among them. -/
theorem matchTable_eq_some {s : List Char} {i : Insertion} (h : matchTable s = some i) :
    ∃ gap behind, s = i.table ++ (gap ++ '(' :: behind) ∧ i.table ≠ [] ∧
      (∀ c ∈ i.table, Command.isTableChar c = true) ∧ (∀ c ∈ gap, isBlank c = true) ∧
      ')' ∉ i.columns := by
  obtain ⟨table, _, rfl, hne, htable, h⟩ := greedySome_eq_some h
  obtain ⟨gap, _, rfl, hgap, h⟩ := greedy_eq_some h
  obtain ⟨behind, rfl, h⟩ := mark_eq_some h
  obtain ⟨columns, _, -, hcolumns, h⟩ := greedy_eq_some h
  obtain ⟨_, -, h⟩ := mark_eq_some h
  obtain ⟨_, _, -, -, h⟩ := greedy_eq_some h
  obtain ⟨_, -, h⟩ := keyword_eq_some h
  obtain ⟨_, _, -, -, h⟩ := greedy_eq_some h
  obtain ⟨_, -, h⟩ := mark_eq_some h
  obtain ⟨_, _, -, -, h⟩ := greedy_eq_some h
  obtain ⟨_, -, h⟩ := mark_eq_some h
  obtain rfl := finish_eq_some h
  exact ⟨gap, behind, rfl, hne, htable, hgap,
    fun hclose => absurd (hcolumns ')' hclose) (by decide)⟩

theorem insertion?_append (s : List Char) :
    insertion? ("INSERT INTO ".toList ++ s) = greedy isBlank (fun _ => matchTable) s := rfl

/-- The names of a list with commas, without quotes around them; empty ones are dropped. -/
def names (list : List Char) : List String := Command.splitNames list

end BulkTransfer.Statement
