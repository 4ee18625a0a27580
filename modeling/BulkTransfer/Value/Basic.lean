import BulkTransfer.Instant.Basic
import BulkTransfer.Number.Binary64
import BulkTransfer.Text.Utf8

/-!
Cell values. Collections keep their kind, so that the written form can tell lists, sets, maps,
tuples and values of user-defined types apart.
-/

namespace BulkTransfer

/-- A cell value as readers and sessions produce it. -/
inductive Value where
  | null
  /-- Text, also that of identifiers, dates and other values without a kind of their own. -/
  | text (s : String)
  /-- A whole number of 64 bits. -/
  | int (i : Int)
  | float (x : Binary64)
  /-- A number of any precision in its decimal text. -/
  | decimal (s : String)
  | bool (b : Bool)
  | bytes (b : Bytes)
  | instant (t : Instant)
  | list (items : List Value)
  | set (items : List Value)
  /-- Entries in the order of the source, with keys of any kind. -/
  | map (entries : List (Value × Value))
  /-- A value of a user-defined type: its fields by name. -/
  | fields (items : List (String × Value))
  | tuple (items : List Value)
  deriving Repr, Inhabited

namespace Value

/-- Whether the value is absent. -/
def isNull : Value → Bool
  | null => true
  | _ => false

/-- The text of a text value. -/
def asText? : Value → Option String
  | text s => some s
  | _ => none

/-- The kind of a value, as messages name it. -/
def kind : Value → String
  | null => "null"
  | text _ => "text"
  | int _ => "int"
  | float _ => "float"
  | decimal _ => "decimal"
  | bool _ => "boolean"
  | bytes _ => "blob"
  | instant _ => "timestamp"
  | list _ => "list"
  | set _ => "set"
  | map _ => "map"
  | fields _ => "udt"
  | tuple _ => "tuple"

end Value

end BulkTransfer
