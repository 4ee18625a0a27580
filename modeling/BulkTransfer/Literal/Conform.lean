import BulkTransfer.Literal.Reader

/-!
Values fitted to declared types, and raw fields read with or without a type.
-/

namespace BulkTransfer

namespace Value

open ValueFailure

/-- The names that keys of a map become under a user-defined type. -/
def fieldNames : List (Value × Value) → Except ValueFailure (List (String × Value))
  | [] => .ok []
  | (text name, v) :: more => match fieldNames more with
    | .ok rest => .ok ((name, v) :: rest)
    | .error e => .error e
  | (k, _) :: _ => .error (fieldNameKind k.kind)

/-- Fits a value without collections: a text under a type with parts is read as a literal. -/
def conformText (s : String) (type : ColumnType) : Except ValueFailure Value :=
  if type.isComposite then Literal.parse s.toList (some type) else ofText s type

mutual

/-- Fits a value to a declared type. -/
def conform (v : Value) (type : ColumnType) : Except ValueFailure Value :=
  match v with
  | text s => conformText s type
  | list items => match type with
    | .list e | .vector e _ => (conformAll items e).map list
    | .set e => (conformAll items e).map set
    | .tuple types =>
      if items.length ≠ types.length then .error (tupleLength types.length items.length)
      else (conformEach items types).map tuple
    | _ => .error (cannotConvert "list" type)
  | set items => match type with
    | .list e | .vector e _ => (conformAll items e).map list
    | .set e => (conformAll items e).map set
    | _ => .error (cannotConvert "set" type)
  | tuple items => match type with
    | .tuple types =>
      if items.length ≠ types.length then .error (tupleLength types.length items.length)
      else (conformEach items types).map tuple
    | _ => .error (cannotConvert "tuple" type)
  | map entries => match type with
    | .map k e => (conformEntries entries k e).map map
    | .userDefined _ => (fieldNames entries).map fields
    | _ => .error (cannotConvert "map" type)
  | fields items => match type with
    | .map k e => (conformFields items k e).map map
    | .userDefined _ => .ok (fields items)
    | _ => .error (cannotConvert "udt" type)
  | v => v.fitScalar type

/-- Fits all items to one type. -/
def conformAll : List Value → ColumnType → Except ValueFailure (List Value)
  | [], _ => .ok []
  | v :: more, type => do
    let v ← conform v type
    let more ← conformAll more type
    pure (v :: more)

/-- Fits each item to the type at its place. -/
def conformEach : List Value → List ColumnType → Except ValueFailure (List Value)
  | v :: more, type :: types => do
    let v ← conform v type
    let more ← conformEach more types
    pure (v :: more)
  | _, _ => .ok []

/-- Fits keys and values of entries. -/
def conformEntries : List (Value × Value) → ColumnType → ColumnType →
    Except ValueFailure (List (Value × Value))
  | [], _, _ => .ok []
  | (k, v) :: more, keyType, valueType => do
    let k ← conform k keyType
    let v ← conform v valueType
    let more ← conformEntries more keyType valueType
    pure ((k, v) :: more)

/-- Fits fields as entries whose keys are the names. -/
def conformFields : List (String × Value) → ColumnType → ColumnType →
    Except ValueFailure (List (Value × Value))
  | [], _, _ => .ok []
  | (n, v) :: more, keyType, valueType => do
    let k ← conformText n keyType
    let v ← conform v valueType
    let more ← conformFields more keyType valueType
    pure ((k, v) :: more)

end

/-- Whether the character may stand in a number with a point or an exponent. -/
def isNumeric (c : Char) : Bool :=
  Integer.isDigit c || c == '+' || c == '-' || c == '.' || c == 'e' || c == 'E'

/-- Reads bytes behind the mark `0x`. -/
def inferBlob? : List Char → Option Value
  | '0' :: 'x' :: digits => match Hex.decodeText digits with
    | .ok b => some (bytes b)
    | .error _ => none
  | _ => none

/-- Reads a number that shows a point or an exponent. -/
def inferFloat? (t : List Char) : Option Value :=
  if t.any (fun c => c == '.' || c == 'e' || c == 'E') && t.all isNumeric then
    (Binary64.read? t).map float
  else none

/-- Reads a collection by its opening character. -/
def inferCollection? (t : List Char) : Option Value :=
  match t with
  | '[' :: _ | '{' :: _ | '(' :: _ => match Literal.parse t none with
    | .ok v => some v
    | .error _ => none
  | _ => none

/-- The value of a raw field whose type is not known: bytes, truth values, whole numbers, numbers
with a point or an exponent, collections, and else the text itself. -/
def infer (raw : String) : Value :=
  let t := Text.trim raw.toList
  match inferBlob? t with
  | some v => v
  | none =>
    if t = "true".toList then bool true
    else if t = "false".toList then bool false
    else match Integer.readSigned? t with
      | some i => int i
      | none => match inferFloat? t with
        | some v => v
        | none => match inferCollection? t with
          | some v => v
          | none => text raw

/-- The value of a raw field, read by its type or inferred. -/
def ofField (raw : String) (type? : Option ColumnType) : Except ValueFailure Value :=
  match type? with
  | some type => conform (text raw) type
  | none => .ok (infer raw)

end Value

end BulkTransfer
