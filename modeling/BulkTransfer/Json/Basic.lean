import BulkTransfer.Keyed
import BulkTransfer.Number.Spelling

/-!
JSON values and their compact written form. Objects list their fields in increasing order of the
names; a number is a whole number of 64 bits or a floating-point number.
-/

namespace BulkTransfer

/-- A JSON value. -/
inductive Json where
  | null
  | bool (b : Bool)
  /-- A whole number between the least signed and the greatest unsigned one of 64 bits. -/
  | int (i : Int)
  /-- A finite floating-point number. -/
  | float (x : Binary64)
  | string (s : String)
  | array (items : List Json)
  | object (fields : List (String × Json))
  deriving Repr, Inhabited

namespace Json

/-- A hexadecimal digit in lower case. -/
def hexDigit (n : Nat) : Char :=
  if n < 10 then Char.ofNat (48 + n) else Char.ofNat (87 + n)

/-- A character inside a JSON string: quotes, backslashes and controls are escaped. -/
def escapeChar (c : Char) : List Char :=
  if c = '"' then ['\\', '"']
  else if c = '\\' then ['\\', '\\']
  else if c = '\n' then ['\\', 'n']
  else if c = '\r' then ['\\', 'r']
  else if c = '\t' then ['\\', 't']
  else if c.toNat = 8 then ['\\', 'b']
  else if c.toNat = 12 then ['\\', 'f']
  else if c.toNat < 32 then
    ['\\', 'u', '0', '0', hexDigit (c.toNat / 16), hexDigit (c.toNat % 16)]
  else [c]

/-- A text as a JSON string. -/
def quote (s : String) : List Char := '"' :: s.toList.flatMap escapeChar ++ ['"']

mutual

/-- The compact written form. -/
def render : Json → List Char
  | null => "null".toList
  | bool true => "true".toList
  | bool false => "false".toList
  | int i => Integer.render i
  | float x => x.dataForm
  | string s => quote s
  | array items => '[' :: renderItems items ++ [']']
  | object fields => '{' :: renderFields fields ++ ['}']

/-- The items of an array with commas between. -/
def renderItems : List Json → List Char
  | [] => []
  | [j] => render j
  | j :: more => render j ++ ',' :: renderItems more

/-- The fields of an object with commas between. -/
def renderFields : List (String × Json) → List Char
  | [] => []
  | [(name, j)] => quote name ++ ':' :: render j
  | (name, j) :: more => quote name ++ ':' :: render j ++ ',' :: renderFields more

end

/-- The compact written form as a string. -/
def text (j : Json) : String := String.ofList j.render

end Json

end BulkTransfer
