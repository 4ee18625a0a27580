import BulkTransfer.Columnar.Platform
import BulkTransfer.Hex
import BulkTransfer.Json.Reader

/-!
Columnar files as bytes: a mark, and behind it the fields and the groups of rows as a JSON text.
Numbers are kept as texts, so that none loses digits. The program writes its files so, with the
usual limit for the rows of a group.
-/

namespace BulkTransfer.Columnar.Storage

open Json

/-- The line that marks a columnar file. -/
def mark : Bytes := Bytes.ofText "columnar file 1\n"

/-! ## Writing -/

/-- A tagged JSON value. -/
def tagged (tag : String) (j : Json) : Json := .array [.string tag, j]

/-- A text that may be missing. -/
def textOrNull : Option String → Json
  | some s => .string s
  | none => .null

/-- The layouts without parts, under their names. -/
def plainLayouts : List (String × Physical) :=
  [("null", .null), ("int8", .int8), ("int16", .int16), ("int32", .int32), ("int64", .int64),
   ("uint8", .uint8), ("uint16", .uint16), ("uint32", .uint32), ("uint64", .uint64),
   ("float32", .float32), ("float64", .float64), ("bool", .bool), ("binary", .binary),
   ("large_binary", .largeBinary), ("utf8", .utf8), ("large_utf8", .largeUtf8),
   ("utf8_view", .utf8View), ("date32", .date32), ("date64", .date64)]

/-- The units of instants, under their names. -/
def units : List (String × TimeUnit) :=
  [("s", .seconds), ("ms", .millis), ("us", .micros), ("ns", .nanos)]

/-- The name of a unit. -/
def unitName (u : TimeUnit) : String := ((units.find? fun p => p.2 = u).map Prod.fst).getD ""

mutual

/-- A layout as JSON. -/
def layoutJson : Physical → Json
  | .instant unit zone? => tagged "ts" (.array [.string (unitName unit), textOrNull zone?])
  | .decimal precision scale =>
    tagged "decimal" (.array [.string (Integer.natText precision), .string (Integer.text scale)])
  | .list item => tagged "list" (layoutJson item)
  | .map key value => tagged "map" (.array [layoutJson key, layoutJson value])
  | .record fields => tagged "record" (.array (layoutFields fields))
  | .null => .string "null"
  | .int8 => .string "int8"
  | .int16 => .string "int16"
  | .int32 => .string "int32"
  | .int64 => .string "int64"
  | .uint8 => .string "uint8"
  | .uint16 => .string "uint16"
  | .uint32 => .string "uint32"
  | .uint64 => .string "uint64"
  | .float32 => .string "float32"
  | .float64 => .string "float64"
  | .bool => .string "bool"
  | .binary => .string "binary"
  | .largeBinary => .string "large_binary"
  | .utf8 => .string "utf8"
  | .largeUtf8 => .string "large_utf8"
  | .utf8View => .string "utf8_view"
  | .date32 => .string "date32"
  | .date64 => .string "date64"

/-- The fields of a record layout as JSON. -/
def layoutFields : List (String × Physical) → List Json
  | [] => []
  | (name, p) :: more => .array [.string name, layoutJson p] :: layoutFields more

end

mutual

/-- A cell as JSON. -/
def cellJson : Cell → Json
  | .null => .null
  | .int i => tagged "int" (.string (Integer.text i))
  | .float x => tagged "float" (.string (Integer.natText x.bits.toNat))
  | .bool b => .bool b
  | .bytes b => tagged "bytes" (.string (String.ofList (Hex.encode b)))
  | .text s => .string s
  | .list items => tagged "list" (.array (cellsJson items))
  | .map entries => tagged "map" (.array (entriesJson entries))
  | .record fields => tagged "record" (.array (recordJson fields))

/-- Cells as JSON. -/
def cellsJson : List Cell → List Json
  | [] => []
  | c :: more => cellJson c :: cellsJson more

/-- Entries of a map as JSON. -/
def entriesJson : List (Cell × Cell) → List Json
  | [] => []
  | (k, v) :: more => .array [cellJson k, cellJson v] :: entriesJson more

/-- Fields of a record as JSON. -/
def recordJson : List (String × Cell) → List Json
  | [] => []
  | (name, c) :: more => .array [.string name, cellJson c] :: recordJson more

end

/-- A field as JSON. -/
def fieldJson (f : Field) : Json :=
  .array [.string f.name, layoutJson f.physical, textOrNull f.declared?]

/-- A group of rows as JSON. -/
def groupJson (g : RowGroup) : Json :=
  .array [.string (Integer.natText g.size), .array (g.columns.map fun c => .array (cellsJson c))]

/-- The bytes of a columnar file. -/
def encode (f : File) : Bytes :=
  mark ++ Bytes.ofText (Json.text (.array
    [.array (f.fields.map fieldJson), .string f.codec.name, .array (f.groups.map groupJson)]))

/-- The size of a file as it grows, reckoned at eight bytes for each cell. It stands in for the bytes
of the library's own layout; nothing that is shown of writers rests on it. -/
def reckonedSize (fields : List Field) (groups : List RowGroup) : Nat :=
  mark.length + 8 * fields.length * (groups.map RowGroup.size).sum

/-- The platform that the program runs on: the limit of groups that the library has where none is
set, and always room for files. -/
instance platform : Platform where
  groupLimit := 1048576
  groupLimit_pos := by decide
  bytes fields _ groups := reckonedSize fields groups
  outlet _ := .endless

/-! ## Reading -/

/-- The text of a JSON string. -/
def text? : Json → Option String
  | .string s => some s
  | _ => none

/-- The items of a JSON array. -/
def items? : Json → Option (List Json)
  | .array items => some items
  | _ => none

/-- A text that may be missing. -/
def textOrNull? : Json → Option (Option String)
  | .null => some none
  | .string s => some (some s)
  | _ => none

/-- A natural number kept as a text. -/
def natural? (j : Json) : Option Nat := (text? j).bind fun s => Integer.readNatural? s.toList

/-- A whole number kept as a text. -/
def whole? (j : Json) : Option Int := (text? j).bind fun s => Integer.readInt? s.toList

mutual

/-- The layout of a JSON value. -/
def layout? : Json → Option Physical
  | .string name => (plainLayouts.find? fun p => p.1 = name).map Prod.snd
  | .array [.string "ts", .array [.string unit, zone]] => do
    let unit ← (units.find? fun p => p.1 = unit).map Prod.snd
    let zone? ← textOrNull? zone
    pure (.instant unit zone?)
  | .array [.string "decimal", .array [precision, scale]] => do
    pure (.decimal (← natural? precision) (← whole? scale))
  | .array [.string "list", item] => (layout? item).map .list
  | .array [.string "map", .array [key, value]] => do
    pure (.map (← layout? key) (← layout? value))
  | .array [.string "record", .array fields] => (layoutFields? fields).map .record
  | _ => none

/-- The fields of a record layout. -/
def layoutFields? : List Json → Option (List (String × Physical))
  | [] => some []
  | .array [.string name, p] :: more => do
    let p ← layout? p
    let rest ← layoutFields? more
    pure ((name, p) :: rest)
  | _ => none

end

mutual

/-- The cell of a JSON value. -/
def cell? : Json → Option Cell
  | .null => some .null
  | .bool b => some (.bool b)
  | .string s => some (.text s)
  | .array [.string "int", i] => (whole? i).map .int
  | .array [.string "float", bits] => (natural? bits).map fun n => .float ⟨UInt64.ofNat n⟩
  | .array [.string "bytes", .string digits] => match Hex.decodeText digits.toList with
    | .ok b => some (.bytes b)
    | .error _ => none
  | .array [.string "list", .array items] => (cells? items).map .list
  | .array [.string "map", .array entries] => (entries? entries).map .map
  | .array [.string "record", .array fields] => (record? fields).map .record
  | _ => none

/-- The cells of JSON values. -/
def cells? : List Json → Option (List Cell)
  | [] => some []
  | j :: more => do
    let c ← cell? j
    let rest ← cells? more
    pure (c :: rest)

/-- The entries of a map. -/
def entries? : List Json → Option (List (Cell × Cell))
  | [] => some []
  | .array [k, v] :: more => do
    let k ← cell? k
    let v ← cell? v
    let rest ← entries? more
    pure ((k, v) :: rest)
  | _ => none

/-- The fields of a record. -/
def record? : List Json → Option (List (String × Cell))
  | [] => some []
  | .array [.string name, c] :: more => do
    let c ← cell? c
    let rest ← record? more
    pure ((name, c) :: rest)
  | _ => none

end

/-- The field of a JSON value. -/
def field? : Json → Option Field
  | .array [.string name, layout, declared] => do
    pure ⟨name, ← layout? layout, ← textOrNull? declared⟩
  | _ => none

/-- The group of a JSON value. -/
def group? : Json → Option RowGroup
  | .array [size, .array columns] => do
    let size ← natural? size
    let columns ← columns.mapM fun c => (items? c).bind cells?
    pure ⟨size, columns⟩
  | _ => none

/-- The file of a JSON value. -/
def file? : Json → Option File
  | .array [.array fields, .string codec, .array groups] => do
    pure ⟨← fields.mapM field?, ← Compression.ofName? codec, ← groups.mapM group?⟩
  | _ => none

/-- The columnar file of bytes, if they are one. -/
def decode? (b : Bytes) : Option File :=
  if b.take mark.length = mark then
    match Bytes.toText? (b.drop mark.length) with
    | none => none
    | some text => match Json.parse text.toList with
      | .ok j => file? j
      | .error _ => none
  else none

end BulkTransfer.Columnar.Storage
