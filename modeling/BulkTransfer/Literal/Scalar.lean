import BulkTransfer.Instant.Reader
import BulkTransfer.Literal.Failure
import BulkTransfer.Text.Case
import BulkTransfer.Text.Split
import BulkTransfer.Uuid
import BulkTransfer.Value.Basic

/-!
Values without parts: how a bare word is read without a type, and how a value is fitted to a type.
-/

namespace BulkTransfer

namespace Value

open Text ValueFailure

/-- The text of a number, truth value or instant. -/
def scalarText : Value → String
  | int i => Integer.text i
  | float x => x.plainText
  | decimal s => s
  | bool true => "true"
  | bool false => "false"
  | instant t => t.text
  | _ => ""

/-- Reads a whole number for a column of integers. -/
def readInteger (s : String) : Except ValueFailure Value :=
  match Integer.readSigned? (trim s.toList) with
  | some i => .ok (int i)
  | none => .error (invalid "integer" s)

/-- Reads a floating-point number. -/
def readFloat (s : String) : Except ValueFailure Value :=
  match Binary64.read? (trim s.toList) with
  | some x => .ok (float x)
  | none => .error (invalid "number" s)

/-- Reads a whole number of any size; one beyond 64 bits keeps its text. -/
def readVarint (s : String) : Except ValueFailure Value :=
  let t := trim s.toList
  match Integer.readSigned? t with
  | some i => .ok (int i)
  | none =>
    if !t.isEmpty && (t.dropWhile fun c => c == '-' || c == '+').all Integer.isDigit then
      .ok (decimal (String.ofList t))
    else .error (invalid "varint" s)

/-- Reads a decimal number, which keeps its text. -/
def readDecimal (s : String) : Except ValueFailure Value :=
  let t := trim s.toList
  match Binary64.read? t with
  | some x => if x.isFinite then .ok (decimal (String.ofList t)) else .error (invalid "decimal" s)
  | none => .error (invalid "decimal" s)

/-- Reads a truth value. -/
def readBoolean (s : String) : Except ValueFailure Value :=
  let word := String.ofList (lower (trim s.toList))
  if word = "true" ∨ word = "yes" ∨ word = "1" then .ok (bool true)
  else if word = "false" ∨ word = "no" ∨ word = "0" then .ok (bool false)
  else .error (invalid "boolean" s)

/-- Drops a leading `0x`. -/
def dropHexMark : List Char → List Char
  | '0' :: 'x' :: rest => rest
  | s => s

/-- Reads bytes; the mark `0x` may lead. -/
def readBlob (s : String) : Except ValueFailure Value :=
  match Hex.decodeText (dropHexMark (trim s.toList)) with
  | .ok b => .ok (bytes b)
  | .error e => .error (badBlob s e)

/-- Reads an identifier and gives its canonical spelling. -/
def readUuid (s : String) : Except ValueFailure Value :=
  match Uuid.parse? (trim s.toList) with
  | some u => .ok (text (String.ofList u.render))
  | none => .error (invalid "uuid" s)

/-- Reads an instant. -/
def readInstant (s : String) : Except ValueFailure Value :=
  match Instant.read? s.toList with
  | some t => .ok (instant t)
  | none => .error (invalid "timestamp" s)

/-- Reads a text for a type without parts. -/
def ofText (s : String) : ColumnType → Except ValueFailure Value
  | .text | .ascii | .inet | .date | .time | .duration => .ok (text s)
  | .uuid | .timeuuid => readUuid s
  | .bigint | .int | .smallint | .tinyint | .counter => readInteger s
  | .float | .double => readFloat s
  | .varint => readVarint s
  | .decimal => readDecimal s
  | .boolean => readBoolean s
  | .blob => readBlob s
  | .timestamp => readInstant s
  | type => .error (cannotConvert "text" type)

/-- The bound below which a floating-point number may be taken for an integer. -/
def wholeBound : Int := 9000000000000000

/-- Fits a whole number to a type. -/
def ofInt (i : Int) (type : ColumnType) : Except ValueFailure Value :=
  if type.isInteger then .ok (int i)
  else if type.isTextual then .ok (text (Integer.text i))
  else match type with
    | .float | .double => .ok (float (Binary64.ofInt i))
    | .decimal | .varint => .ok (int i)
    | .timestamp => match Instant.ofMillis? i with
      | some t => .ok (instant t)
      | none => .error (instantRange i)
    | .boolean =>
      if i = 0 then .ok (bool false)
      else if i = 1 then .ok (bool true)
      else .error (cannotConvert "int" type)
    | _ => .error (cannotConvert "int" type)

/-- Fits a floating-point number to a type. -/
def ofFloat (x : Binary64) (type : ColumnType) : Except ValueFailure Value :=
  if type.isInteger then
    match x.toInt? with
    | some i => if i.natAbs < wholeBound.natAbs then .ok (int i) else .error (notInteger x)
    | none => .error (notInteger x)
  else if type.isTextual then .ok (text x.plainText)
  else match type with
    | .float | .double | .decimal => .ok (float x)
    | _ => .error (cannotConvert "float" type)

/-- Fits a number of any precision to a type. -/
def ofDecimal (s : String) (type : ColumnType) : Except ValueFailure Value :=
  if type.isTextual then .ok (text s)
  else match type with
    | .decimal | .varint => .ok (decimal s)
    | .float | .double => readFloat s
    | _ => .error (cannotConvert "decimal" type)

/-- Fits an instant to a type; a date keeps the day. -/
def ofInstant (t : Instant) (type : ColumnType) : Except ValueFailure Value :=
  match type with
  | .timestamp => .ok (instant t)
  | .date => .ok (text (String.ofList t.dateText))
  | _ => if type.isTextual then .ok (text t.text) else .error (cannotConvert "timestamp" type)

/-- Fits a truth value to a type. -/
def ofBool (b : Bool) (type : ColumnType) : Except ValueFailure Value :=
  match type with
  | .boolean => .ok (bool b)
  | _ => if type.isTextual then .ok (text (scalarText (bool b)))
    else .error (cannotConvert "boolean" type)

/-- Fits a value without parts to a type; a text under a type with parts is not read here. -/
def fitScalar (v : Value) (type : ColumnType) : Except ValueFailure Value :=
  match v with
  | null => .ok null
  | text s => ofText s type
  | int i => ofInt i type
  | float x => ofFloat x type
  | decimal s => ofDecimal s type
  | bool b => ofBool b type
  | instant t => ofInstant t type
  | bytes b => match type with
    | .blob => .ok (bytes b)
    | _ => .error (cannotConvert "blob" type)
  | v => .error (cannotConvert v.kind type)

/-- Whether two texts agree when ASCII letters have no case. -/
def sameWord (token : List Char) (word : String) : Bool :=
  equalsIgnoringAsciiCase token word.toList

/-- Reads a bare word without a type: null, truth values, bytes, numbers, or the word itself. -/
def ofBareWord (token : List Char) : Except ValueFailure Value :=
  if sameWord token "null" then .ok null
  else if sameWord token "true" then .ok (bool true)
  else if sameWord token "false" then .ok (bool false)
  else match token with
    | '0' :: 'x' :: digits | '0' :: 'X' :: digits => match Hex.decodeText digits with
      | .ok b => .ok (bytes b)
      | .error e => .error (badBlobLiteral (String.ofList token) e)
    | _ => match Integer.readSigned? token with
      | some i => .ok (int i)
      | none => match Binary64.read? token with
        | some x => .ok (float x)
        | none => .ok (text (String.ofList token))

end Value

end BulkTransfer
