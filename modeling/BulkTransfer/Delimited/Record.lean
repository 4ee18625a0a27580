import BulkTransfer.Options.Basic
import BulkTransfer.Text.Utf8

/-!
Records of delimited text: fields between delimiter bytes, one record a line. A field may stand in
quote bytes; a quote inside is doubled, or stands behind the escape byte where there is one.
Lines end with a carriage return, a line feed, or both; empty lines are no records.

- `Dialect.step`: what one byte does at each place in a record.
- `Dialect.nextRecord?`: the next record and the bytes behind it.
- `Dialect.encodeRecord`: the bytes of a record.
-/

namespace BulkTransfer.Delimited

/-- The bytes that tell fields apart. -/
structure Dialect where
  delimiter : UInt8
  quote : UInt8
  escape? : Option UInt8
  deriving DecidableEq, Repr, Inhabited

/-- The dialect that options ask for. -/
def Dialect.ofOptions (o : Options) : Dialect := ⟨o.delimiter, o.quote, o.escape?⟩

/-- How rows are written as delimited text. -/
structure Settings where
  dialect : Dialect
  /-- Whether the first record holds the names of the columns. -/
  header : Bool
  /-- The field that stands for null. -/
  nullToken : String
  deriving DecidableEq, Repr, Inhabited

/-- The settings that options ask for. -/
def Settings.ofOptions (o : Options) : Settings := ⟨Dialect.ofOptions o, o.header, o.nullToken⟩

/-- Line feed. -/
def lineFeed : UInt8 := 10

/-- Carriage return. -/
def carriageReturn : UInt8 := 13

/-- Whether the byte ends a line. -/
def endsLine (b : UInt8) : Bool := b == carriageReturn || b == lineFeed

/-- Where in a record the reading stands. -/
inductive Stand where
  | fieldStart
  | inField
  | inQuotes
  /-- Behind an escape byte in quotes. -/
  | escaped
  /-- Behind a quote in quotes, which ends them or is the first of two. -/
  | quoteSeen
  deriving DecidableEq, Repr

/-- What a byte does. -/
inductive Act where
  /-- The byte belongs to the field. -/
  | keep (next : Stand)
  /-- The byte is passed over. -/
  | pass (next : Stand)
  | endField
  | endRecord
  deriving DecidableEq, Repr

namespace Dialect

/-- What a byte does outside quotes. -/
def plainStep (d : Dialect) (b : UInt8) : Act :=
  if b = d.delimiter then .endField
  else if endsLine b then .endRecord
  else .keep .inField

/-- What a byte does. -/
def step (d : Dialect) (stand : Stand) (b : UInt8) : Act :=
  match stand with
  | .fieldStart => if b = d.quote then .pass .inQuotes else d.plainStep b
  | .inField => d.plainStep b
  | .inQuotes =>
    if b = d.quote then .pass .quoteSeen
    else if d.escape? = some b then .pass .escaped
    else .keep .inQuotes
  | .escaped => .keep .inQuotes
  | .quoteSeen => if b = d.quote then .keep .inQuotes else d.plainStep b

/-- The fields of a record and the bytes behind it; `field` holds the bytes of the present field,
last one first. The end of the text ends the record also inside quotes. -/
def readFields (d : Dialect) : Stand → Bytes → Bytes → List Bytes × Bytes
  | _, field, [] => ([field.reverse], [])
  | stand, field, b :: rest => match d.step stand b with
    | .keep next => d.readFields next (b :: field) rest
    | .pass next => d.readFields next field rest
    | .endField =>
      let (more, left) := d.readFields .fieldStart [] rest
      (field.reverse :: more, left)
    | .endRecord => ([field.reverse], rest)

/-- The next record and the bytes behind it, or `none` where only line ends are left. -/
def nextRecord? (d : Dialect) (input : Bytes) : Option (List Bytes × Bytes) :=
  match input.dropWhile endsLine with
  | [] => none
  | b :: rest => some (d.readFields .fieldStart [] (b :: rest))

/-! ## Writing -/

/-- Whether a byte can only stand in quotes. -/
def needsQuotes (d : Dialect) (b : UInt8) : Bool :=
  b == d.delimiter || b == d.quote || endsLine b || d.escape? == some b

/-- A byte in quotes. Only the quote itself is marked, also where there is an escape byte. -/
def quotedByte (d : Dialect) (b : UInt8) : Bytes :=
  if b = d.quote then [d.escape?.getD d.quote, b] else [b]

/-- The bytes of a field. -/
def encodeField (d : Dialect) (field : Bytes) : Bytes :=
  if field.any d.needsQuotes then d.quote :: field.flatMap d.quotedByte ++ [d.quote] else field

/-- Fields with delimiters between. -/
def encodeFields (d : Dialect) : List Bytes → Bytes
  | [] => []
  | [field] => d.encodeField field
  | field :: more => d.encodeField field ++ d.delimiter :: d.encodeFields more

/-- The line of a record; one without any byte is written as an empty quoted field, since an empty
line is no record. -/
def encodeRecord (d : Dialect) (fields : List Bytes) : Bytes :=
  match d.encodeFields fields with
  | [] => [d.quote, d.quote, lineFeed]
  | line => line ++ [lineFeed]

end Dialect

end BulkTransfer.Delimited
