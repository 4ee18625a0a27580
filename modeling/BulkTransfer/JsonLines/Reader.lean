import BulkTransfer.Literal.Conform
import BulkTransfer.Record
import BulkTransfer.Source
import BulkTransfer.Text.Line
import BulkTransfer.Value.Json

/-!
Reading rows from JSON documents: one object a line, or one array of objects. Names come from the
command, else from the table, else from the first object; types come from the table.
-/

namespace BulkTransfer.JsonLines

open Text

/-- A reader of a JSON document. -/
structure Reader where
  columns : List Column
  /-- The bytes still to read. -/
  rest : Bytes
  /-- The first line, which tells the layout. -/
  pending : List String
  /-- The items of an array document still to hand out. -/
  items : List Json
  /-- Records passed so far. -/
  position : Nat
  exhausted : Bool

/-- The failure of a step that reads bytes. -/
def readFailure (cause : String) : Failure := .operation "read_json" cause

/-- The cause where a text is not well-formed. -/
def notText : String := FileFault.notText.message

/-- Drops the line end. -/
def dropLineEnd (line : List Char) : List Char :=
  (line.reverse.dropWhile fun c => c == '\r' || c == '\n').reverse

/-- The next line that is not blank, and the bytes behind it. -/
def nextLine (input : Bytes) : Bytes × Except Failure (Option String) :=
  match input with
  | [] => ([], .ok none)
  | b :: more =>
    match Bytes.toText? (Bytes.takeLine (b :: more)).1 with
    | none => ((Bytes.takeLine (b :: more)).2, .error (readFailure notText))
    | some line =>
      if (trim line.toList).isEmpty then nextLine (Bytes.takeLine (b :: more)).2
      else ((Bytes.takeLine (b :: more)).2, .ok (some (String.ofList (dropLineEnd line.toList))))
termination_by input.length
decreasing_by exact Bytes.length_takeLine_lt b more

/-! ## Values -/

/-- The two items of a pair. -/
def pair? : Json → Option (Value × Value)
  | .array [k, v] => some (Value.ofJson k, Value.ofJson v)
  | _ => none

/-- The entries that pairs make, if all items are pairs. -/
def pairs? : List Json → Option (List (Value × Value))
  | [] => some []
  | j :: more => match pair? j, pairs? more with
    | some e, some rest => some (e :: rest)
    | _, _ => none

/-- The value before it is fitted to a type: an array of pairs under a map is a map. -/
def rawValue (j : Json) (type? : Option ColumnType) : Value :=
  match j, type? with
  | .array items, some (.map _ _) => match pairs? items with
    | some entries => .map entries
    | none => Value.ofJson j
  | _, _ => Value.ofJson j

/-- The value of a JSON value under a type. -/
def valueOf (j : Json) (type? : Option ColumnType) : Except ValueFailure Value :=
  match type? with
  | some type => (rawValue j type?).conform type
  | none => .ok (rawValue j type?)

/-- Puts the values of the columns into a row, one after the other; absent ones are null. -/
def fillRow (fields : List (String × Json)) : List Column → Row → Except String Row
  | [], row => .ok row
  | column :: more, row => match Keyed.get? column.name fields with
    | none => fillRow fields more (row.insert column.name .null)
    | some j => match valueOf j column.type? with
      | .ok v => fillRow fields more (row.insert column.name v)
      | .error e => .error ("column " ++ column.name ++ ": " ++ e.message)

/-- The row of a JSON value, which must be an object. -/
def rowOf (columns : List Column) : Except String Json → Except String Row
  | .error message => .error message
  | .ok (.object fields) => fillRow fields columns .empty
  | .ok other => .error ("expected a JSON object, found " ++ other.text)

/-- The JSON value of a line. -/
def parseLine (line : String) : Except String Json :=
  match Json.parse line.toList with
  | .ok j => .ok j
  | .error e => .error e.message

namespace Reader

/-- Takes the next record as JSON. -/
def next (r : Reader) : Reader × Except Failure (Option (Except String Json)) :=
  match r.items with
  | item :: more => ({ r with items := more }, .ok (some (.ok item)))
  | [] => match r.pending with
    | line :: more => ({ r with pending := more }, .ok (some (parseLine line)))
    | [] =>
      if r.exhausted then (r, .ok none)
      else match nextLine r.rest with
        | (rest, .error e) => ({ r with rest := rest }, .error e)
        | (rest, .ok (some line)) => ({ r with rest := rest }, .ok (some (parseLine line)))
        | (rest, .ok none) => ({ r with rest := rest, exhausted := true }, .ok none)

/-- Whether nothing is left, as far as the reader has seen. -/
def isDone (r : Reader) : Bool := r.exhausted && r.items.isEmpty && r.pending.isEmpty

/-- Reads up to so many records. -/
def readRecords (r : Reader) : Nat → Reader × Except Failure (List Record)
  | 0 => (r, .ok [])
  | max + 1 => match r.next with
    | (r, .error e) => (r, .error e)
    | (r, .ok none) => (r, .ok [])
    | (r, .ok (some parsed)) =>
      let r := { r with position := r.position + 1 }
      let record : Record := match rowOf r.columns parsed with
        | .ok row => .ok row
        | .error message => .error ⟨r.position, message⟩
      match r.readRecords max with
      | (r, .ok more) => (r, .ok (record :: more))
      | (r, .error e) => (r, .error e)

/-- Reads a batch of up to so many records. -/
def readBatch (r : Reader) (max : Nat) : Reader × Except Failure ReadBatch :=
  match r.readRecords max with
  | (r, .ok records) => (r, .ok ⟨records, r.isDone⟩)
  | (r, .error e) => (r, .error e)

/-- Passes over up to so many records, and counts them. -/
def skip (r : Reader) : Nat → Reader × Except Failure Nat
  | 0 => (r, .ok 0)
  | n + 1 => match r.next with
    | (r, .error e) => (r, .error e)
    | (r, .ok none) => (r, .ok 0)
    | (r, .ok (some _)) => match { r with position := r.position + 1 }.skip n with
      | (r, .ok m) => (r, .ok (m + 1))
      | (r, .error e) => (r, .error e)

/-! ## Opening -/

/-- A reader of the bytes that has found out the layout. -/
def ofBytes (b : Bytes) : Except Failure Reader :=
  match nextLine b with
  | (_, .error e) => .error e
  | (rest, .ok none) => .ok ⟨[], rest, [], [], 0, true⟩
  | (rest, .ok (some line)) => match trimStart line.toList with
    | '[' :: _ => match Bytes.toText? rest with
      | none => .error (readFailure notText)
      | some behind => match Json.parseArray (line.toList ++ behind.toList) with
        | .ok items => .ok ⟨[], [], [], items, 0, true⟩
        | .error e => .error (.invalidInput (.badJsonArray e))
    | _ => .ok ⟨[], rest, [line], [], 0, false⟩

/-- The bytes that opening a source leaves unread, whether it succeeds or not. -/
def leftByOpening (b : Bytes) : Bytes :=
  match nextLine b with
  | (rest, .ok (some line)) => match trimStart line.toList with
    | '[' :: _ => []
    | _ => rest
  | (rest, _) => rest

/-- The names that the first object has. -/
def firstNames (r : Reader) : List String :=
  let first? := match r.items, r.pending with
    | item :: _, _ => some item
    | [], line :: _ => (parseLine line).toOption
    | [], [] => none
  match first? with
  | some (.object fields) => Keyed.keys fields
  | _ => []

/-- Opens a stream. -/
def ofStream (stream : Stream) (known : KnownColumns) : Except Failure Reader :=
  match stream with
  | .directory => .error (readFailure FileFault.isDirectory.message)
  | .bytes b => match ofBytes b with
    | .error e => .error e
    | .ok r =>
      let names :=
        if !known.explicit.isEmpty then known.explicit
        else if !known.table.isEmpty then known.table.map Column.name
        else r.firstNames
      if names.isEmpty && !r.isDone then .error (.invalidInput .noJsonColumns)
      else .ok { r with columns := names.map (Column.knownOrUntyped known.table) }

end Reader

end BulkTransfer.JsonLines
