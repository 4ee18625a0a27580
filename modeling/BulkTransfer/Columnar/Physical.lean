import BulkTransfer.ColumnType.Basic
import BulkTransfer.Text.Quoted

/-!
Physical types of columnar files, and the column types that they tell where nothing else is
declared.

- `physicalOf`: how a declared type is stored. Scalars and collections of scalars have a layout of
  their own, all else is text.
- `Physical.columnType?`: the declared type that a layout stands for.
-/

namespace BulkTransfer.Columnar

/-- The unit of a stored instant. -/
inductive TimeUnit where
  | seconds
  | millis
  | micros
  | nanos
  deriving DecidableEq, Repr, Inhabited

/-- How the values of a column are stored. -/
inductive Physical where
  | null
  | int8
  | int16
  | int32
  | int64
  | uint8
  | uint16
  | uint32
  | uint64
  | float32
  | float64
  | bool
  | binary
  | largeBinary
  | utf8
  | largeUtf8
  | utf8View
  /-- Days since 1970-01-01. -/
  | date32
  /-- Milliseconds since 1970-01-01 that stand for a date. -/
  | date64
  | instant (unit : TimeUnit) (zone? : Option String)
  /-- Whole numbers with a decimal point `scale` digits from the right. -/
  | decimal (precision : Nat) (scale : Int)
  | list (item : Physical)
  | map (key value : Physical)
  | record (fields : List (String × Physical))
  deriving Repr, Inhabited

/-- How values of a declared type are stored. -/
def physicalOf : ColumnType → Physical
  | .bigint | .counter => .int64
  | .int => .int32
  | .smallint => .int16
  | .tinyint => .int8
  | .float => .float32
  | .double => .float64
  | .boolean => .bool
  | .blob => .binary
  | .timestamp => .instant .millis (some "UTC")
  | .list e | .set e | .vector e _ => if e.isComposite then .utf8 else .list (physicalOf e)
  | .map k v =>
    if k.isComposite || v.isComposite then .utf8 else .map (physicalOf k) (physicalOf v)
  | _ => .utf8

namespace Physical

/-- The declared type that a layout stands for. -/
def columnType? : Physical → Option ColumnType
  | int64 | uint32 | uint64 => some .bigint
  | int32 | uint16 => some .int
  | int16 | uint8 => some .smallint
  | int8 => some .tinyint
  | float32 => some .float
  | float64 => some .double
  | bool => some .boolean
  | binary | largeBinary => some .blob
  | instant _ _ => some .timestamp
  | date32 => some .date
  | decimal _ _ => some .decimal
  | utf8 | largeUtf8 | utf8View => some .text
  | list item => match item.columnType? with
    | some e => some (.list e)
    | none => none
  | map key value => match key.columnType?, value.columnType? with
    | some k, some v => some (.map k v)
    | _, _ => none
  | null | date64 | record _ => none

/-- The sign of a unit. -/
def unitSign : TimeUnit → String
  | .seconds => "s"
  | .millis => "ms"
  | .micros => "µs"
  | .nanos => "ns"

mutual

/-- The layout as messages name it. -/
def name : Physical → String
  | null => "Null"
  | int8 => "Int8"
  | int16 => "Int16"
  | int32 => "Int32"
  | int64 => "Int64"
  | uint8 => "UInt8"
  | uint16 => "UInt16"
  | uint32 => "UInt32"
  | uint64 => "UInt64"
  | float32 => "Float32"
  | float64 => "Float64"
  | bool => "Boolean"
  | binary => "Binary"
  | largeBinary => "LargeBinary"
  | utf8 => "Utf8"
  | largeUtf8 => "LargeUtf8"
  | utf8View => "Utf8View"
  | date32 => "Date32"
  | date64 => "Date64"
  | instant unit none => "Timestamp(" ++ unitSign unit ++ ")"
  | instant unit (some zone) =>
    "Timestamp(" ++ unitSign unit ++ ", " ++ Text.quotedText zone ++ ")"
  | decimal precision scale =>
    "Decimal128(" ++ Integer.natText precision ++ ", " ++ Integer.text scale ++ ")"
  | list item => "List(" ++ name item ++ ")"
  | map key value =>
    "Map(\"entries\": non-null Struct(\"keys\": non-null " ++ name key ++ ", \"values\": " ++
      name value ++ "), unsorted)"
  | record fields => "Struct(" ++ fieldNames fields ++ ")"

/-- Fields of a record with commas between. -/
def fieldNames : List (String × Physical) → String
  | [] => ""
  | [(n, t)] => Text.quotedText n ++ ": " ++ name t
  | (n, t) :: more => Text.quotedText n ++ ": " ++ name t ++ ", " ++ fieldNames more

end

end Physical

end BulkTransfer.Columnar
