import BulkTransfer.Number.Integer

/-!
Declared types of table columns, their classes, and their written form.
-/

namespace BulkTransfer

/-- The type that a table declares for a column. -/
inductive ColumnType where
  | ascii
  | text
  | bigint
  | int
  | smallint
  | tinyint
  | varint
  | counter
  | float
  | double
  | decimal
  | boolean
  | blob
  | timestamp
  | date
  | time
  | duration
  | uuid
  | timeuuid
  | inet
  | list (element : ColumnType)
  | set (element : ColumnType)
  | map (key value : ColumnType)
  | tuple (items : List ColumnType)
  /-- A list of a declared length. -/
  | vector (element : ColumnType) (dimension : Nat)
  /-- A type that the user defined, by its name. -/
  | userDefined (name : String)
  deriving Repr, Inhabited

namespace ColumnType

/-- Whether values of the type are whole numbers of at most 64 bits. -/
def isInteger : ColumnType → Bool
  | bigint | int | smallint | tinyint | counter => true
  | _ => false

/-- Whether values of the type have parts. -/
def isComposite : ColumnType → Bool
  | list _ | set _ | map _ _ | tuple _ | vector _ _ | userDefined _ => true
  | _ => false

/-- Whether values of the type are identifiers. -/
def isUuid : ColumnType → Bool
  | uuid | timeuuid => true
  | _ => false

/-- Whether values of the type are kept as the text they are written in. -/
def isTextual : ColumnType → Bool
  | text | ascii | inet | date | time | duration => true
  | _ => false

/-- The type of the elements of lists, sets and vectors. -/
def element? : ColumnType → Option ColumnType
  | list e | set e | vector e _ => some e
  | _ => none

/-- The types without parameters and the names they are written with. -/
def scalarNames : List (String × ColumnType) :=
  [("ascii", ascii), ("text", text), ("bigint", bigint), ("int", int), ("smallint", smallint),
   ("tinyint", tinyint), ("varint", varint), ("counter", counter), ("float", float),
   ("double", double), ("decimal", decimal), ("boolean", boolean), ("blob", blob),
   ("timestamp", timestamp), ("date", date), ("time", time), ("duration", duration),
   ("uuid", uuid), ("timeuuid", timeuuid), ("inet", inet)]

mutual

/-- The written form of a type. -/
def render : ColumnType → String
  | ascii => "ascii"
  | text => "text"
  | bigint => "bigint"
  | int => "int"
  | smallint => "smallint"
  | tinyint => "tinyint"
  | varint => "varint"
  | counter => "counter"
  | float => "float"
  | double => "double"
  | decimal => "decimal"
  | boolean => "boolean"
  | blob => "blob"
  | timestamp => "timestamp"
  | date => "date"
  | time => "time"
  | duration => "duration"
  | uuid => "uuid"
  | timeuuid => "timeuuid"
  | inet => "inet"
  | list e => "list<" ++ render e ++ ">"
  | set e => "set<" ++ render e ++ ">"
  | map k v => "map<" ++ render k ++ ", " ++ render v ++ ">"
  | tuple items => "tuple<" ++ renderItems items ++ ">"
  | vector e n => "vector<" ++ render e ++ ", " ++ Integer.natText n ++ ">"
  | userDefined name => name

/-- Types with a comma and a blank between each two. -/
def renderItems : List ColumnType → String
  | [] => ""
  | [t] => render t
  | t :: more => render t ++ ", " ++ renderItems more

end

end ColumnType

end BulkTransfer
