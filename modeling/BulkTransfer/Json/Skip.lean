import BulkTransfer.Json.Reader

/-!
Passing over JSON values that nobody asks for. Their form is checked, but not the range of numbers,
the pairing of surrogates, or the depth of nesting.
-/

namespace BulkTransfer.Json

/-- Passes an escape behind its backslash. -/
def skipEscape (c : Cursor) : Except Failure Cursor :=
  match c.rest with
  | [] => c.fail .endInString
  | e :: rest =>
    if e ∈ ['"', '\\', '/', 'b', 'f', 'n', 'r', 't'] then .ok (c.pass e rest)
    else if e = 'u' then (readHex (c.pass e rest)).map Prod.snd
    else c.failNext .invalidEscape

/-- Passes the characters of a string up to the closing quote, in at most so many steps. -/
def skipChars : Nat → Cursor → Except Failure Cursor
  | 0, c => c.fail .endInString
  | steps + 1, c => match c.rest with
    | [] => c.fail .endInString
    | d :: rest =>
      if d = '"' then .ok (c.pass d rest)
      else if d = '\\' then
        match skipEscape (c.pass d rest) with
        | .error e => .error e
        | .ok c => skipChars steps c
      else if d.toNat < 32 then c.fail .controlCharacter
      else skipChars steps (c.pass d rest)

/-- Passes a string behind its opening quote. -/
def skipString (c : Cursor) : Except Failure Cursor := skipChars (c.rest.length + 1) c

/-- Passes the digits of an exponent behind its letter. -/
def skipExponent (c : Cursor) : Except Failure Cursor :=
  let c := match c.rest with
    | '+' :: rest => c.pass '+' rest
    | '-' :: rest => c.pass '-' rest
    | _ => c
  match c.rest with
  | [] => c.fail .invalidNumber
  | d :: rest =>
    if Integer.isDigit d then .ok (passDigits (Cursor.after c.position d) rest)
    else c.failNext .invalidNumber

/-- Passes an exponent, if there is one. -/
def skipTail (c : Cursor) : Except Failure Cursor :=
  match c.rest with
  | 'e' :: rest => skipExponent (c.pass 'e' rest)
  | 'E' :: rest => skipExponent (c.pass 'E' rest)
  | _ => .ok c

/-- Passes what follows the whole digits of a number. -/
def skipFraction (c : Cursor) : Except Failure Cursor :=
  match c.rest with
  | '.' :: rest =>
    let c := c.pass '.' rest
    match c.rest with
    | d :: _ =>
      if Integer.isDigit d then skipTail (passDigits c.position c.rest)
      else c.failNext .invalidNumber
    | [] => c.failNext .invalidNumber
  | _ => skipTail c

/-- Passes a number behind its sign. -/
def skipNumber (c : Cursor) : Except Failure Cursor :=
  match c.rest with
  | [] => c.fail .invalidNumber
  | '0' :: rest =>
    let c := c.pass '0' rest
    match c.rest with
    | d :: _ => if Integer.isDigit d then c.failNext .invalidNumber else skipFraction c
    | [] => skipFraction c
  | d :: rest =>
    if Integer.isDigit d then skipFraction (passDigits (Cursor.after c.position d) rest)
    else c.failNext .invalidNumber

/-- Passes the name of a field and its colon. -/
def skipName (c : Cursor) : Except Failure Cursor := do
  let c := c.skipSpace
  match c.rest with
  | [] => c.failNext .endInObject
  | '"' :: rest => passColon (← skipString (c.pass '"' rest))
  | _ :: _ => c.failNext .keyMustBeString

mutual

/-- Passes a value in at most so many steps. -/
def skipValueIn : Nat → Cursor → Except Failure Cursor
  | 0, c => c.fail .endInValue
  | steps + 1, c => do
    let c := c.skipSpace
    match c.rest with
    | [] => c.failNext .endInValue
    | 'n' :: rest => Cursor.passWord "ull".toList (c.pass 'n' rest)
    | 't' :: rest => Cursor.passWord "rue".toList (c.pass 't' rest)
    | 'f' :: rest => Cursor.passWord "alse".toList (c.pass 'f' rest)
    | '-' :: rest => skipNumber (c.pass '-' rest)
    | '"' :: rest => skipString (c.pass '"' rest)
    | '[' :: rest =>
      let c := (c.pass '[' rest).skipSpace
      match c.rest with
      | [] => c.failNext .endInList
      | ']' :: rest => .ok (c.pass ']' rest)
      | _ :: _ => skipItemsIn steps (← skipValueIn steps c)
    | '{' :: rest =>
      let c := (c.pass '{' rest).skipSpace
      match c.rest with
      | [] => c.failNext .endInObject
      | '}' :: rest => .ok (c.pass '}' rest)
      | _ :: _ => skipFieldsIn steps (← skipValueIn steps (← skipName c))
    | d :: _ => if Integer.isDigit d then skipNumber c else c.failNext .expectedValue

/-- Passes the rest of an array behind an item, in at most so many steps. -/
def skipItemsIn : Nat → Cursor → Except Failure Cursor
  | 0, c => c.fail .endInList
  | steps + 1, c => do
    let c := c.skipSpace
    match c.rest with
    | [] => c.failNext .endInList
    | ',' :: rest => skipItemsIn steps (← skipValueIn steps (c.pass ',' rest))
    | ']' :: rest => .ok (c.pass ']' rest)
    | _ :: _ => c.failNext .expectedListCommaOrEnd

/-- Passes the rest of an object behind a field, in at most so many steps. -/
def skipFieldsIn : Nat → Cursor → Except Failure Cursor
  | 0, c => c.fail .endInObject
  | steps + 1, c => do
    let c := c.skipSpace
    match c.rest with
    | [] => c.failNext .endInObject
    | ',' :: rest => skipFieldsIn steps (← skipValueIn steps (← skipName (c.pass ',' rest)))
    | '}' :: rest => .ok (c.pass '}' rest)
    | _ :: _ => c.failNext .expectedObjectCommaOrEnd

end

/-- Passes a value. Every step takes at least one character, so as many steps as characters
suffice. -/
def skipValue (c : Cursor) : Except Failure Cursor := skipValueIn (c.rest.length + 2) c

end BulkTransfer.Json
