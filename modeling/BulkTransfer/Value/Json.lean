import BulkTransfer.Json.Reader
import BulkTransfer.Hex
import BulkTransfer.Value.Basic

/-!
Values as JSON and back. Bytes become strings of hexadecimal digits behind `0x`, instants their
written form. A map is an object if all its keys are texts and an array of pairs otherwise.
-/

namespace BulkTransfer.Value

/-- Whether all keys of a map are texts. -/
def allTextKeys (entries : List (Value × Value)) : Bool :=
  entries.all fun e => e.1.asText?.isSome

mutual

/-- The JSON form of a value. -/
def toJson : Value → Json
  | null => .null
  | text s => .string s
  | int i => .int i
  | float x => if x.isFinite then .float x else .string x.plainText
  | decimal s => match Json.parseNumber? s.toList with
    | some j => j
    | none => .string s
  | bool b => .bool b
  | bytes b => .string (String.ofList ('0' :: 'x' :: Hex.encode b))
  | instant t => .string t.text
  | list items => .array (itemsToJson items)
  | set items => .array (itemsToJson items)
  | tuple items => .array (itemsToJson items)
  | map entries =>
    if allTextKeys entries then .object (Keyed.ofPairs (entriesToFields entries))
    else .array (entriesToPairs entries)
  | fields items => .object (Keyed.ofPairs (fieldsToJson items))

/-- The JSON forms of a list of values. -/
def itemsToJson : List Value → List Json
  | [] => []
  | v :: more => toJson v :: itemsToJson more

/-- The fields that entries with text keys make. -/
def entriesToFields : List (Value × Value) → List (String × Json)
  | [] => []
  | (k, v) :: more => match k with
    | text s => (s, toJson v) :: entriesToFields more
    | _ => entriesToFields more

/-- The pairs that entries make. -/
def entriesToPairs : List (Value × Value) → List Json
  | [] => []
  | (k, v) :: more => .array [toJson k, toJson v] :: entriesToPairs more

/-- The JSON forms of named fields. -/
def fieldsToJson : List (String × Value) → List (String × Json)
  | [] => []
  | (n, v) :: more => (n, toJson v) :: fieldsToJson more

end

mutual

/-- The value of a JSON value: objects become maps with text keys. -/
def ofJson : Json → Value
  | .null => null
  | .bool b => bool b
  | .int i => if i ≤ Integer.max64 then int i else float (Binary64.ofInt i)
  | .float x => float x
  | .string s => text s
  | .array items => list (ofJsonItems items)
  | .object fs => map (ofJsonFields fs)

/-- The values of JSON items. -/
def ofJsonItems : List Json → List Value
  | [] => []
  | j :: more => ofJson j :: ofJsonItems more

/-- The entries of JSON fields. -/
def ofJsonFields : List (String × Json) → List (Value × Value)
  | [] => []
  | (n, j) :: more => (text n, ofJson j) :: ofJsonFields more

end

end BulkTransfer.Value
