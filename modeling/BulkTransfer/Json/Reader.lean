import BulkTransfer.Json.Number

/-!
Reading of JSON texts. At most 127 arrays and objects may be open at once; of two fields with one
name the last stays.

The loops over items and fields take the reader of one item as an argument, so that a text can
also be read as a document of a known shape.
-/

namespace BulkTransfer.Json

/-! ## Strings -/

/-- The value of four hexadecimal digits. -/
def hexValue? (c : Char) : Option Nat :=
  let n := c.toNat
  if 48 ≤ n ∧ n ≤ 57 then some (n - 48)
  else if 97 ≤ n ∧ n ≤ 102 then some (n - 87)
  else if 65 ≤ n ∧ n ≤ 70 then some (n - 55)
  else none

/-- Whether a text has at least so many bytes. -/
def hasBytes : Nat → List Char → Bool
  | 0, _ => true
  | _, [] => false
  | n, c :: rest => hasBytes (n - c.utf8Size) rest

/-- The four digits of an escape. -/
def readHex (c : Cursor) : Except Failure (Nat × Cursor) :=
  match c.rest with
  | a :: b :: d :: e :: rest =>
    match hexValue? a, hexValue? b, hexValue? d, hexValue? e with
    | some a, some b, some d, some e =>
      .ok (((a * 16 + b) * 16 + d) * 16 + e,
        ⟨rest, ⟨c.position.line, c.position.column + 4⟩⟩)
    | _, _, _, _ => .error ⟨.invalidEscape, Cursor.positionAfter c.position 4 c.rest⟩
  | short =>
    if hasBytes 4 short then
      .error ⟨.invalidEscape, Cursor.positionAfter c.position 4 short⟩
    else .error ⟨.endInString, Cursor.positionAfter c.position 4 short⟩

/-- The second half of a surrogate pair. -/
def readTrail (lead : Nat) (c : Cursor) : Except Failure (Char × Cursor) :=
  match c.rest with
  | [] => c.fail .endInString
  | '\\' :: rest =>
    let c := c.pass '\\' rest
    match c.rest with
    | [] => c.fail .endInString
    | 'u' :: rest =>
      match readHex (c.pass 'u' rest) with
      | .error e => .error e
      | .ok (trail, c) =>
        if trail < 0xdc00 ∨ 0xdfff < trail then c.fail .loneSurrogate
        else .ok (Char.ofNat ((lead - 0xd800) * 1024 + (trail - 0xdc00) + 0x10000), c)
    | _ :: _ => c.failNext .endOfHexEscape
  | _ :: _ => c.failNext .endOfHexEscape

/-- The character of an escape behind its `u`. -/
def readUnicode (c : Cursor) : Except Failure (Char × Cursor) :=
  match readHex c with
  | .error e => .error e
  | .ok (n, c) =>
    if 0xdc00 ≤ n ∧ n ≤ 0xdfff then c.fail .loneSurrogate
    else if 0xd800 ≤ n ∧ n ≤ 0xdbff then readTrail n c
    else .ok (Char.ofNat n, c)

/-- The character of an escape behind its backslash. -/
def readEscape (c : Cursor) : Except Failure (Char × Cursor) :=
  match c.rest with
  | [] => c.fail .endInString
  | e :: rest =>
    let next := c.pass e rest
    if e = '"' ∨ e = '\\' ∨ e = '/' then .ok (e, next)
    else if e = 'b' then .ok (Char.ofNat 8, next)
    else if e = 'f' then .ok (Char.ofNat 12, next)
    else if e = 'n' then .ok ('\n', next)
    else if e = 'r' then .ok ('\r', next)
    else if e = 't' then .ok ('\t', next)
    else if e = 'u' then readUnicode next
    else c.failNext .invalidEscape

/-- Reads the characters of a string up to the closing quote. Each step takes at least one
character, so as many steps as characters suffice. -/
def readChars : Nat → Cursor → Except Failure (List Char × Cursor)
  | 0, c => c.fail .endInString
  | steps + 1, c => match c.rest with
    | [] => c.fail .endInString
    | d :: rest =>
      if d = '"' then .ok ([], c.pass d rest)
      else if d = '\\' then
        match readEscape (c.pass d rest) with
        | .error e => .error e
        | .ok (e, c) => match readChars steps c with
          | .error f => .error f
          | .ok (more, c) => .ok (e :: more, c)
      else if d.toNat < 32 then .error ⟨.controlCharacter, c.nextPosition⟩
      else match readChars steps (c.pass d rest) with
        | .error f => .error f
        | .ok (more, c) => .ok (d :: more, c)

/-- Reads a string behind its opening quote. -/
def readString (c : Cursor) : Except Failure (String × Cursor) :=
  match readChars (c.rest.length + 1) c with
  | .error e => .error e
  | .ok (s, c) => .ok (String.ofList s, c)

/-! ## Arrays and objects -/

/-- The end of an array. -/
def endList (c : Cursor) : Except Failure Cursor :=
  let c := c.skipSpace
  match c.rest with
  | [] => c.failNext .endInList
  | ']' :: rest => .ok (c.pass ']' rest)
  | ',' :: rest =>
    let c := (c.pass ',' rest).skipSpace
    match c.rest with
    | ']' :: _ => c.failNext .trailingComma
    | _ => c.failNext .trailingCharacters
  | _ :: _ => c.failNext .trailingCharacters

/-- The end of an object. -/
def endObject (c : Cursor) : Except Failure Cursor :=
  let c := c.skipSpace
  match c.rest with
  | [] => c.failNext .endInObject
  | '}' :: rest => .ok (c.pass '}' rest)
  | ',' :: _ => c.failNext .trailingComma
  | _ :: _ => c.failNext .trailingCharacters

/-- Goes to the next item of an array: `none` before the closing bracket. -/
def nextItem (first : Bool) (c : Cursor) : Except Failure (Option Cursor × Cursor) :=
  let c := c.skipSpace
  match c.rest with
  | [] => c.failNext .endInList
  | ']' :: _ => .ok (none, c)
  | d :: rest =>
    if first then .ok (some c, c)
    else if d = ',' then
      let c := (c.pass d rest).skipSpace
      match c.rest with
      | [] => c.failNext .endInValue
      | ']' :: _ => c.failNext .trailingComma
      | _ :: _ => .ok (some c, c)
    else c.failNext .expectedListCommaOrEnd

/-- Goes to the next name of an object, which must be a string: `none` before the closing brace. -/
def nextName (first : Bool) (c : Cursor) : Except Failure (Option Cursor × Cursor) :=
  let c := c.skipSpace
  match c.rest with
  | [] => c.failNext .endInObject
  | '}' :: _ => .ok (none, c)
  | d :: rest =>
    if first then
      if d = '"' then .ok (some (c.pass d rest), c) else c.failNext .keyMustBeString
    else if d = ',' then
      let c := (c.pass d rest).skipSpace
      match c.rest with
      | [] => c.failNext .endInValue
      | '"' :: rest => .ok (some (c.pass '"' rest), c)
      | '}' :: _ => c.failNext .trailingComma
      | _ :: _ => c.failNext .keyMustBeString
    else c.failNext .expectedObjectCommaOrEnd

/-- The colon behind a name. -/
def passColon (c : Cursor) : Except Failure Cursor :=
  let c := c.skipSpace
  match c.rest with
  | [] => c.failNext .endInObject
  | ':' :: rest => .ok (c.pass ':' rest)
  | _ :: _ => c.failNext .expectedColon

/-- Reads items up to the closing bracket. Each takes at least one character, so as many steps as
characters suffice. -/
def readItems {α : Type} (item : Cursor → Except Failure (α × Cursor)) :
    Nat → Bool → Cursor → Except Failure (List α × Cursor)
  | 0, _, c => c.failNext .endInList
  | steps + 1, first, c => do
    match ← nextItem first c with
    | (none, c) => pure ([], c)
    | (some c, _) =>
      let (a, c) ← item c
      let (more, c) ← readItems item steps false c
      pure (a :: more, c)

/-- Reads named fields up to the closing brace. -/
def readFields {α : Type} (item : Cursor → Except Failure (α × Cursor)) :
    Nat → Bool → Cursor → Except Failure (List (String × α) × Cursor)
  | 0, _, c => c.failNext .endInObject
  | steps + 1, first, c => do
    match ← nextName first c with
    | (none, c) => pure ([], c)
    | (some c, _) =>
      let (name, c) ← readString c
      let c ← passColon c
      let (a, c) ← item c
      let (more, c) ← readFields item steps false c
      pure ((name, a) :: more, c)

/-! ## Values -/

/-- How many arrays and objects may be open at once. -/
def maxNesting : Nat := 127

/-- Reads a value; `room` more arrays and objects may be opened. -/
def readValue (room : Nat) (c : Cursor) : Except Failure (Json × Cursor) :=
  let c := c.skipSpace
  match c.rest with
  | [] => c.failNext .endInValue
  | 'n' :: rest => (Cursor.passWord "ull".toList (c.pass 'n' rest)).map fun c => (.null, c)
  | 't' :: rest => (Cursor.passWord "rue".toList (c.pass 't' rest)).map fun c => (.bool true, c)
  | 'f' :: rest => (Cursor.passWord "alse".toList (c.pass 'f' rest)).map fun c => (.bool false, c)
  | '-' :: rest => readNumber false (c.pass '-' rest)
  | '"' :: rest => (readString (c.pass '"' rest)).map fun (s, c) => (.string s, c)
  | '[' :: rest => match room with
    | 0 => c.failNext .recursionLimit
    | inner + 1 => do
      let (items, c) ← readItems (readValue inner) (rest.length + 1) true (c.pass '[' rest)
      let c ← endList c
      pure (.array items, c)
  | '{' :: rest => match room with
    | 0 => c.failNext .recursionLimit
    | inner + 1 => do
      let (fields, c) ← readFields (readValue inner) (rest.length + 1) true (c.pass '{' rest)
      let c ← endObject c
      pure (.object (Keyed.ofPairs fields), c)
  | d :: _ => if Integer.isDigit d then readNumber true c else c.failNext .expectedValue

/-- Only space may follow a document. -/
def finish {α : Type} (a : α) (c : Cursor) : Except Failure α :=
  let c := c.skipSpace
  match c.rest with
  | [] => .ok a
  | _ :: _ => c.failNext .trailingCharacters

/-- Reads a whole document. -/
def parse (s : List Char) : Except Failure Json := do
  let (j, c) ← readValue maxNesting (Cursor.start s)
  finish j c

/-- Reads a whole document that must be an array, and gives its items. -/
def parseArray (s : List Char) : Except Failure (List Json) := do
  let c := (Cursor.start s).skipSpace
  match c.rest with
  | '[' :: rest =>
    let (items, c) ← readItems (readValue (maxNesting - 1)) (rest.length + 1) true (c.pass '[' rest)
    let c ← endList c
    finish items c
  | _ => c.failNext .expectedValue

/-- Reads a text that is a number and nothing else. -/
def parseNumber? (s : List Char) : Option Json :=
  let c := Cursor.start s
  let read := match s with
    | '-' :: rest => readNumber false (c.pass '-' rest)
    | _ => readNumber true c
  match read with
  | .ok (j, c) => if c.rest.isEmpty then some j else none
  | .error _ => none

end BulkTransfer.Json
