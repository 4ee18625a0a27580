import BulkTransfer.Number.Spelling

/-!
Values of TOML documents. A date-time is kept as its text in one spelling.
-/

namespace BulkTransfer.Toml

/-- A value of a document. -/
inductive Value where
  | string (s : String)
  | integer (i : Int)
  | float (x : Binary64)
  | boolean (b : Bool)
  | datetime (text : String)
  | array (items : List Value)
  | table (fields : List (String × Value))
  deriving Repr, Inhabited

namespace Value

/-- The name of the kind of a value. -/
def kind : Value → String
  | string _ => "string"
  | integer _ => "integer"
  | float _ => "float"
  | boolean _ => "boolean"
  | datetime _ => "datetime"
  | array _ => "array"
  | table _ => "table"

/-- The text of a value that is neither composite nor a date-time. -/
def scalarText? : Value → Option String
  | string s => some s
  | integer i => some (Integer.text i)
  | float x => some x.plainText
  | boolean b => some (if b then "true" else "false")
  | _ => none

mutual

/-- Whether every whole number in a value is a signed one of 64 bits. -/
def isNarrow : Value → Bool
  | integer i => decide (Integer.min64 ≤ i) && decide (i ≤ Integer.max64)
  | array items => areNarrow items
  | table fields => fieldsNarrow fields
  | _ => true

/-- Whether every whole number in values is a signed one of 64 bits. -/
def areNarrow : List Value → Bool
  | [] => true
  | v :: more => v.isNarrow && areNarrow more

/-- Whether every whole number in fields is a signed one of 64 bits. -/
def fieldsNarrow : List (String × Value) → Bool
  | [] => true
  | (_, v) :: more => v.isNarrow && fieldsNarrow more

end

end Value

/-- The text that remains behind what was read; `none` where a document is malformed. -/
abbrev Step (α : Type) := List Char → Option (α × List Char)

/-- Passes spaces and tabs. -/
def skipBlank (s : List Char) : List Char := s.dropWhile fun c => c = ' ' ∨ c = '\t'

/-- Whether a character may stand in comments and literal strings. -/
def isPlain (c : Char) : Bool := c == '\t' || (32 ≤ c.toNat && c.toNat != 127)

/-- Passes a comment, up to the end of its line. A carriage return may only stand before the line
feed. -/
def skipComment : List Char → Option (List Char)
  | '#' :: rest => match rest.dropWhile isPlain with
    | [] => some []
    | '\n' :: more => some ('\n' :: more)
    | '\r' :: '\n' :: more => some ('\n' :: more)
    | _ => none
  | s => some s

/-- The text behind a line end, if one is there. -/
def skipNewline? : List Char → Option (List Char)
  | '\n' :: rest => some rest
  | '\r' :: '\n' :: rest => some rest
  | _ => none

/-- Passes blanks, comments and line ends, which may stand between the items of an array. Each step
passes at least one character, so as many steps as characters suffice. -/
def skipSpaceIn : Nat → List Char → Option (List Char)
  | 0, s => some s
  | steps + 1, s => match skipComment (skipBlank s) with
    | none => none
    | some rest => match skipNewline? rest with
      | some more => skipSpaceIn steps more
      | none => some rest

/-- Passes blanks, comments and line ends. -/
def skipSpace (s : List Char) : Option (List Char) := skipSpaceIn (s.length + 1) s

end BulkTransfer.Toml
