import BulkTransfer.Delimited.Record
import BulkTransfer.Literal.Conform
import BulkTransfer.Record
import BulkTransfer.Source

/-!
Reading rows from delimited text. Names come from the command, else from the header, else from the
table; types come from the table.
-/

namespace BulkTransfer.Delimited

open Text

/-- A reader of delimited text. -/
structure Reader where
  dialect : Dialect
  nullToken : String
  columns : List Column
  /-- All bytes of the source. -/
  source : Bytes
  /-- The bytes still to read. -/
  rest : Bytes
  /-- Records read with the header. -/
  lines : Nat
  /-- Records passed so far, without the header. -/
  position : Nat
  /-- Whether the source is a directory that no read has touched. -/
  unreadable : Bool
  exhausted : Bool

/-- The mark that may stand before the first record. -/
def byteOrderMark : Bytes := [0xef, 0xbb, 0xbf]

/-- The bytes behind a leading mark. -/
def dropMark (b : Bytes) : Bytes := if b.take 3 = byteOrderMark then b.drop 3 else b

/-- A name from the header, without blanks and the marks of key columns. -/
def cleanName (name : List Char) : List Char :=
  let name := trim name
  trim ((dropEnd? " (PK)".toList name <|> dropEnd? " (C)".toList name).getD name)

/-- A name from the header as text. -/
def cleanHeader (name : String) : String := String.ofList (cleanName name.toList)

/-- A field that is not well-formed text. -/
structure BadField where
  index : Nat
  validBytes : Nat

/-- The texts of fields, of which the first has the given index. -/
def decodeFields (index : Nat) : List Bytes → Except BadField (List String)
  | [] => .ok []
  | field :: more => match Bytes.toText? field with
    | none => .error ⟨index, Bytes.validLength field⟩
    | some s => match decodeFields (index + 1) more with
      | .ok rest => .ok (s :: rest)
      | .error e => .error e

/-- The outcome of reading one record. -/
inductive Next where
  | fields (texts : List String)
  /-- A record that is not well-formed text. -/
  | malformed (message : String)
  | noMore
  /-- Nothing can be read. -/
  | unreadable

namespace Reader

/-- The message of a field that is not well-formed text; the place is that before the record. -/
def badFieldMessage (r : Reader) (bad : BadField) : String :=
  let passed := r.source.length - r.rest.length
  let line := 1 + (r.source.take passed).count lineFeed
  let index := Integer.natText bad.index
  "CSV parse error: record " ++ Integer.natText r.lines ++ " (line " ++ Integer.natText line ++
    ", field: " ++ index ++ ", byte: " ++ Integer.natText passed ++
    "): invalid utf-8: invalid UTF-8 in field " ++ index ++ " near byte index " ++
    Integer.natText bad.validBytes

/-- The bytes of the next record; a leading mark belongs to none. -/
def remaining (r : Reader) : Bytes := if r.lines = 0 then dropMark r.rest else r.rest

/-- Reads the next record as bytes. -/
def nextBytes? (r : Reader) : Reader × Option (List Bytes) :=
  match r.dialect.nextRecord? r.remaining with
  | none => ({ r with rest := [] }, none)
  | some (fields, rest) => ({ r with rest := rest, lines := r.lines + 1 }, some fields)

/-- Reads the next record. -/
def next (r : Reader) : Reader × Next :=
  if r.unreadable then ({ r with unreadable := false }, .unreadable)
  else match r.nextBytes? with
    | (after, none) => (after, .noMore)
    | (after, some fields) => match decodeFields 0 fields with
      | .ok texts => (after, .fields texts)
      | .error bad => (after, .malformed (r.badFieldMessage bad))

/-- The value of one field. -/
def fieldValue (nullToken : String) (column : Column) (field : String) :
    Except String Value :=
  if field = nullToken then .ok .null
  else match Value.ofField field column.type? with
    | .ok v => .ok v
    | .error e => .error ("column " ++ column.name ++ ": " ++ e.message)

/-- Puts the values of fields into a row, one after the other. -/
def fillRow (nullToken : String) : List Column → List String → Row → Except String Row
  | column :: columns, field :: fields, row => match fieldValue nullToken column field with
    | .ok v => fillRow nullToken columns fields (row.insert column.name v)
    | .error e => .error e
  | _, _, row => .ok row

/-- The row of a record, which has a field for each column. -/
def convert (r : Reader) (fields : List String) : Except String Row :=
  if fields.length ≠ r.columns.length then
    .error ("expected " ++ Integer.natText r.columns.length ++ " fields, found " ++
      Integer.natText fields.length)
  else fillRow r.nullToken r.columns fields .empty

/-- The record with a number. -/
def numbered (record : Nat) : Except String Row → Record
  | .ok row => .ok row
  | .error message => .error ⟨record, message⟩

/-- Reads up to so many records. -/
def readRecords (r : Reader) : Nat → Reader × Except Failure (List Record)
  | 0 => (r, .ok [])
  | max + 1 =>
    if r.exhausted then (r, .ok [])
    else match r.next with
      | (r, .noMore) => ({ r with exhausted := true }, .ok [])
      | (r, .unreadable) => (r, .error (.operation "read_csv" FileFault.isDirectory.message))
      | (r, .fields texts) =>
        let r := { r with position := r.position + 1 }
        let record := numbered r.position (r.convert texts)
        match r.readRecords max with
        | (r, .ok more) => (r, .ok (record :: more))
        | (r, .error e) => (r, .error e)
      | (r, .malformed message) =>
        let r := { r with position := r.position + 1 }
        let record : Record := .error ⟨r.position, message⟩
        match r.readRecords max with
        | (r, .ok more) => (r, .ok (record :: more))
        | (r, .error e) => (r, .error e)

/-- Reads a batch of up to so many records. -/
def readBatch (r : Reader) (max : Nat) : Reader × Except Failure ReadBatch :=
  match r.readRecords max with
  | (r, .ok records) => (r, .ok ⟨records, r.exhausted⟩)
  | (r, .error e) => (r, .error e)

/-- Passes over up to so many records, and counts them. -/
def skip (r : Reader) : Nat → Reader × Except Failure Nat
  | 0 => (r, .ok 0)
  | n + 1 =>
    if r.exhausted then (r, .ok 0)
    else if r.unreadable then
      ({ r with unreadable := false },
        .error (.operation "skip_csv" FileFault.isDirectory.message))
    else match r.nextBytes? with
      | (r, none) => ({ r with exhausted := true }, .ok 0)
      | (r, some _) => match { r with position := r.position + 1 }.skip n with
        | (r, .ok m) => (r, .ok (m + 1))
        | (r, .error e) => (r, .error e)

/-- The first of name lists that is not empty. -/
def pickNames (explicit header table : List String) : List String :=
  if !explicit.isEmpty then explicit else if !header.isEmpty then header else table

/-- Opens a stream and reads the header where the settings say that there is one. -/
def withSettings (stream : Stream) (settings : Settings) (known : KnownColumns) :
    Except Failure Reader :=
  let bytes := match stream with
    | .bytes b => b
    | .directory => []
  let unreadable := match stream with
    | .bytes _ => false
    | .directory => true
  let fresh : Reader :=
    ⟨settings.dialect, settings.nullToken, [], bytes, bytes, 0, 0, unreadable, false⟩
  let withHeader : Except Failure (Reader × List String) :=
    if settings.header then
      match fresh.next with
      | (r, .fields texts) => .ok (r, texts.map cleanHeader)
      | (r, .noMore) => .ok (r, [])
      | (_, .malformed message) => .error (.operation "read_csv_header" message)
      | (_, .unreadable) =>
        .error (.operation "read_csv_header" FileFault.isDirectory.message)
    else .ok (fresh, [])
  match withHeader with
  | .error e => .error e
  | .ok (r, header) =>
    match pickNames known.explicit header (known.table.map Column.name) with
    | [] => .error (.invalidInput .noDelimitedColumns)
    | names => .ok { r with columns := names.map (Column.knownOrUntyped known.table) }

/-- Opens a stream by the settings of options. -/
def ofStream (stream : Stream) (options : Options) (known : KnownColumns) :
    Except Failure Reader :=
  withSettings stream (.ofOptions options) known

/-- The bytes that opening a source leaves unread, whether it succeeds or not. -/
def leftByOpening (b : Bytes) (options : Options) : Bytes :=
  if options.header then
    match (Dialect.ofOptions options).nextRecord? (dropMark b) with
    | some (_, rest) => rest
    | none => []
  else b

end Reader

end BulkTransfer.Delimited
