import BulkTransfer.Text.Split
import BulkTransfer.Toml.Basic

/-!
Strings of TOML documents: in double quotes with escapes, in single quotes as they stand, and both
over several lines between three quotes.
-/

namespace BulkTransfer.Toml

/-- The value of a hexadecimal digit. -/
def hexValue? (c : Char) : Option Nat :=
  let n := c.toNat
  if 48 ≤ n ∧ n ≤ 57 then some (n - 48)
  else if 97 ≤ n ∧ n ≤ 102 then some (n - 87)
  else if 65 ≤ n ∧ n ≤ 70 then some (n - 55)
  else none

/-- The value of so many hexadecimal digits. -/
def hexDigits (value : Nat) : Nat → Step Nat
  | 0, s => some (value, s)
  | _ + 1, [] => none
  | n + 1, c :: rest => match hexValue? c with
    | some d => hexDigits (16 * value + d) n rest
    | none => none

/-- The character of a number; surrogates and numbers past the last character have none. -/
def scalar? (n : Nat) : Option Char :=
  if n < 0xd800 ∨ (0xdfff < n ∧ n ≤ 0x10ffff) then some (Char.ofNat n) else none

/-- The character of so many hexadecimal digits. -/
def readCode (digits : Nat) : Step Char := fun s =>
  match hexDigits 0 digits s with
  | some (n, rest) => (scalar? n).map fun c => (c, rest)
  | none => none

/-- The character of an escape behind its backslash. -/
def readEscape : Step Char
  | 'b' :: rest => some (Char.ofNat 8, rest)
  | 't' :: rest => some ('\t', rest)
  | 'n' :: rest => some ('\n', rest)
  | 'f' :: rest => some (Char.ofNat 12, rest)
  | 'r' :: rest => some ('\r', rest)
  | 'e' :: rest => some (Char.ofNat 27, rest)
  | '"' :: rest => some ('"', rest)
  | '\\' :: rest => some ('\\', rest)
  | 'x' :: rest => readCode 2 rest
  | 'u' :: rest => readCode 4 rest
  | 'U' :: rest => readCode 8 rest
  | _ => none

/-- Puts a character before what a step reads. -/
def consed (c : Char) : Option (List Char × List Char) → Option (List Char × List Char)
  | some (more, rest) => some (c :: more, rest)
  | none => none

/-- Reads a string of one line behind its opening double quote. Each step passes at least one
character, so as many steps as characters suffice. -/
def readBasicIn : Nat → Step (List Char)
  | 0, _ => none
  | _ + 1, [] => none
  | steps + 1, c :: rest =>
    if c = '"' then some ([], rest)
    else if c = '\\' then
      match readEscape rest with
      | some (d, rest) => consed d (readBasicIn steps rest)
      | none => none
    else if isPlain c then consed c (readBasicIn steps rest)
    else none

/-- Reads a string of one line behind its opening single quote. -/
def readLiteral : Step (List Char)
  | [] => none
  | c :: rest =>
    if c = '\'' then some ([], rest)
    else if isPlain c then consed c (readLiteral rest)
    else none

/-- Passes blank lines and the blanks of the next line, in at most so many steps. -/
def skipBlankLines : Nat → List Char → List Char
  | 0, s => s
  | steps + 1, s => match skipNewline? (skipBlank s) with
    | some rest => skipBlankLines steps rest
    | none => skipBlank s

/-- Passes blanks and line ends behind a backslash at the end of a line; `none` where something
else follows on that line. -/
def skipBreak? (s : List Char) : Option (List Char) :=
  (skipNewline? (skipBlank s)).map fun rest => skipBlankLines (rest.length + 1) rest

/-- The end of a string of several lines: three quotes, before which up to two more may stand. -/
def readClose? (quote : Char) : Step (List Char) := fun s =>
  let quotes := s.takeWhile (· = quote)
  if 3 ≤ quotes.length ∧ quotes.length ≤ 5 then
    some (quotes.drop 3, s.dropWhile (· = quote))
  else none

/-- Whether a carriage return at the start stands before a line feed. -/
def isReturn : List Char → Bool
  | '\r' :: '\n' :: _ => true
  | _ => false

/-- Reads a string of several lines behind its opening, with or without escapes. Each step passes
at least one character, so as many steps as characters suffice. -/
def readLinesIn (quote : Char) (escapes : Bool) : Nat → Step (List Char)
  | 0, _ => none
  | _ + 1, [] => none
  | steps + 1, c :: rest =>
    if c = quote then
      if [quote, quote].isPrefixOf rest then readClose? quote (c :: rest)
      else consed c (readLinesIn quote escapes steps rest)
    else if c = '\\' ∧ escapes then
      match skipBreak? rest with
      | some rest => readLinesIn quote escapes steps rest
      | none => match readEscape rest with
        | some (d, rest) => consed d (readLinesIn quote escapes steps rest)
        | none => none
    else if isPlain c ∨ c = '\n' ∨ isReturn (c :: rest) then
      consed c (readLinesIn quote escapes steps rest)
    else none

/-- Reads a string of several lines behind its opening; a line end right there does not count. -/
def readLines (quote : Char) (escapes : Bool) : Step (List Char) := fun s =>
  readLinesIn quote escapes (s.length + 1) ((skipNewline? s).getD s)

/-- Reads a string of one line. -/
def readLine? : Step (List Char)
  | '"' :: rest => readBasicIn (rest.length + 1) rest
  | '\'' :: rest => readLiteral rest
  | _ => none

/-- Reads any string. -/
def readString? : Step (List Char)
  | '"' :: '"' :: '"' :: rest => readLines '"' true rest
  | '\'' :: '\'' :: '\'' :: rest => readLines '\'' false rest
  | s => readLine? s

/-! ## Keys -/

/-- Whether a character may stand in a key without quotes. -/
def isKeyChar (c : Char) : Bool :=
  (c.toNat < 128 && c.isAlphanum) || c == '_' || c == '-'

/-- Reads one part of a key. -/
def readKeyPart? (s : List Char) : Option (String × List Char) :=
  match s.takeWhile isKeyChar with
  | [] => (readLine? s).map fun (name, rest) => (String.ofList name, rest)
  | name => some (String.ofList name, s.dropWhile isKeyChar)

/-- Reads the parts of a key with dots between, and the blanks around them, in at most so many
steps. -/
def readKeyIn : Nat → Step (List String)
  | 0, _ => none
  | steps + 1, s => match readKeyPart? (skipBlank s) with
    | none => none
    | some (part, rest) => match skipBlank rest with
      | '.' :: more => (readKeyIn steps more).map fun (parts, rest) => (part :: parts, rest)
      | rest => some ([part], rest)

/-- Reads a key: its parts, of which there is at least one. -/
def readKey (s : List Char) : Option (List String × List Char) := readKeyIn (s.length + 1) s

end BulkTransfer.Toml
