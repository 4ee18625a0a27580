import BulkTransfer.Json.Basic

/-!
A place in a JSON text and the faults found there. Lines are counted from one; columns count the
bytes passed since the line began.
-/

namespace BulkTransfer.Json

/-- What is wrong with a JSON text. -/
inductive Fault where
  | endInList
  | endInObject
  | endInString
  | endInValue
  | expectedColon
  | expectedListCommaOrEnd
  | expectedObjectCommaOrEnd
  | expectedIdent
  | expectedValue
  | invalidEscape
  | invalidNumber
  | numberOutOfRange
  | controlCharacter
  | keyMustBeString
  | loneSurrogate
  | trailingComma
  | trailingCharacters
  | endOfHexEscape
  | recursionLimit
  /-- A well-formed text that does not have the shape asked for. -/
  | shape (message : String)
  deriving DecidableEq, Repr

/-- The wording of a fault. -/
def Fault.message : Fault → String
  | .endInList => "EOF while parsing a list"
  | .endInObject => "EOF while parsing an object"
  | .endInString => "EOF while parsing a string"
  | .endInValue => "EOF while parsing a value"
  | .expectedColon => "expected `:`"
  | .expectedListCommaOrEnd => "expected `,` or `]`"
  | .expectedObjectCommaOrEnd => "expected `,` or `\x7d`"
  | .expectedIdent => "expected ident"
  | .expectedValue => "expected value"
  | .invalidEscape => "invalid escape"
  | .invalidNumber => "invalid number"
  | .numberOutOfRange => "number out of range"
  | .controlCharacter => "control character (\\u0000-\\u001F) found while parsing a string"
  | .keyMustBeString => "key must be a string"
  | .loneSurrogate => "lone leading surrogate in hex escape"
  | .trailingComma => "trailing comma"
  | .trailingCharacters => "trailing characters"
  | .endOfHexEscape => "unexpected end of hex escape"
  | .recursionLimit => "recursion limit exceeded"
  | .shape message => message

/-- A place between two bytes of a text. -/
structure Position where
  line : Nat
  column : Nat
  deriving DecidableEq, Repr

/-- A fault and its place. -/
structure Failure where
  fault : Fault
  position : Position
  deriving DecidableEq, Repr

/-- The wording of a failure with its place. -/
def Failure.message (f : Failure) : String :=
  s!"{f.fault.message} at line {f.position.line} column {f.position.column}"

/-- The text still to read and the place reached. -/
structure Cursor where
  rest : List Char
  position : Position

namespace Cursor

/-- The start of a text. -/
def start (s : List Char) : Cursor := ⟨s, ⟨1, 0⟩⟩

/-- The place after a character. -/
def after (p : Position) (c : Char) : Position :=
  if c = '\n' then ⟨p.line + 1, 0⟩ else ⟨p.line, p.column + c.utf8Size⟩

/-- Passes a given first character. -/
def pass (c : Cursor) (first : Char) (rest : List Char) : Cursor := ⟨rest, after c.position first⟩

/-- The place one byte on, which is where a fault of the next character is reported. -/
def nextPosition (c : Cursor) : Position :=
  match c.rest with
  | [] => c.position
  | '\n' :: _ => ⟨c.position.line + 1, 0⟩
  | _ :: _ => ⟨c.position.line, c.position.column + 1⟩

/-- The place so many bytes on, or at the end of the text. -/
def positionAfter (p : Position) : Nat → List Char → Position
  | _, [] => p
  | 0, _ => p
  | n, c :: rest =>
    if c.utf8Size ≤ n then positionAfter (after p c) (n - c.utf8Size) rest
    else ⟨p.line, p.column + n⟩

/-- A fault at the place reached. -/
def fail {α : Type} (c : Cursor) (fault : Fault) : Except Failure α := .error ⟨fault, c.position⟩

/-- A fault at the next character. -/
def failNext {α : Type} (c : Cursor) (fault : Fault) : Except Failure α :=
  .error ⟨fault, c.nextPosition⟩

/-- The four characters that may stand between tokens. -/
def isSpace (c : Char) : Bool := c == ' ' || c == '\n' || c == '\t' || c == '\r'

/-- Passes the space before a token. -/
def skipSpaceFrom (p : Position) : List Char → Cursor
  | [] => ⟨[], p⟩
  | c :: rest => if isSpace c then skipSpaceFrom (after p c) rest else ⟨c :: rest, p⟩

/-- Passes the space before a token. -/
def skipSpace (c : Cursor) : Cursor := skipSpaceFrom c.position c.rest

/-- Passes the remaining characters of a word such as `null`. -/
def passWord : List Char → Cursor → Except Failure Cursor
  | [], c => .ok c
  | w :: more, c => match c.rest with
    | [] => c.fail .endInValue
    | d :: rest => if d = w then passWord more (c.pass d rest) else c.failNext .expectedIdent

end Cursor

end BulkTransfer.Json
