import BulkTransfer.Literal.Scalar
import BulkTransfer.Text.Letter

/-!
Reading of literals: quoted texts, bare words, lists in brackets, tuples in parentheses, and sets,
maps and user-defined values in braces.

A text that stands where a type with parts is declared is itself read as a literal of that type.
A quoted text is shorter than the literal that quotes it, so this comes to an end; a bare word is
not, and reading it leads back to itself. The recursion is bounded by a count of levels that a
literal without such a word never uses up.
-/

namespace BulkTransfer.Literal

open Text ValueFailure

/-- A reader: what it reads and the text behind that. -/
abbrev Step (α : Type) := List Char → Except ValueFailure (α × List Char)

/-! ## Tokens -/

/-- Passes a character that is due; `size` is the length of the whole literal in bytes. -/
def expect (size : Nat) (want : Char) (s : List Char) : Except ValueFailure (List Char) :=
  match trimStart s with
  | [] => .error (expectedAtEnd want)
  | c :: rest =>
    if c = want then .ok rest
    else .error (expected want (size - Bytes.lengthOf (c :: rest)) c)

/-- Only blanks may follow a literal. -/
def finish (s : List Char) : Except ValueFailure Unit :=
  match trimStart s with
  | [] => .ok ()
  | c :: rest => .error (trailing (String.ofList (c :: rest)))

/-- Reads a quoted text behind its opening quote; a quote inside is written twice. -/
def readQuoted (quote : Char) : List Char → Except ValueFailure (List Char × List Char)
  | [] => .error unterminatedQuote
  | [c] => if c = quote then .ok ([], []) else .error unterminatedQuote
  | c :: d :: rest =>
    if c = quote then
      if d = quote then
        match readQuoted quote rest with
        | .ok (text, rest) => .ok (quote :: text, rest)
        | .error e => .error e
      else .ok ([], d :: rest)
    else match readQuoted quote (d :: rest) with
      | .ok (text, rest) => .ok (c :: text, rest)
      | .error e => .error e

/-- Whether the character may stand in a bare word. -/
def isBare (c : Char) : Bool :=
  !(isBlank c || c == ',' || c == '[' || c == ']' || c == '{' || c == '}' || c == '(' || c == ')' ||
    c == ':' || c == '\'')

/-- The bare word at the start of a text. -/
def bareWord (s : List Char) : List Char := s.takeWhile isBare

/-- The text behind a bare word. -/
def afterBareWord (s : List Char) : List Char := s.dropWhile isBare

/-- Reads the name of a field: quoted, or a bare word. -/
def readFieldName (s : List Char) : Except ValueFailure (String × List Char) :=
  match trimStart s with
  | '"' :: rest => match readQuoted '"' rest with
    | .ok (name, rest) => .ok (String.ofList name, rest)
    | .error e => .error e
  | s => match bareWord s with
    | [] => .error (expectedFieldName (String.ofList s))
    | word => .ok (String.ofList word, afterBareWord s)

/-! ## Sequences -/

/-- Reads items with commas between up to the closing character, of which the first has the given
index. Each item takes at least one character, so as many steps as characters suffice. -/
def readItems {α : Type} (close : Char) (item : Nat → Step α) :
    Nat → Nat → List Char → Except ValueFailure (List α × List Char)
  | 0, _, _ => .error endless
  | steps + 1, index, s => do
    let (a, s) ← item index s
    match trimStart s with
    | [] => throw (unterminated close)
    | c :: rest =>
      if c = ',' then do
        let (more, rest) ← readItems close item steps (index + 1) rest
        pure (a :: more, rest)
      else if c = close then pure ([a], rest)
      else throw (expectedCommaOr close c)

/-- Reads a possibly empty sequence of items behind its opening character. -/
def readSequence {α : Type} (close : Char) (item : Nat → Step α) (s : List Char) :
    Except ValueFailure (List α × List Char) :=
  match trimStart s with
  | c :: rest =>
    if c = close then .ok ([], rest)
    else readItems close item (s.length + 1) 0 (c :: rest)
  | [] => readItems close item (s.length + 1) 0 []

/-! ## Braces without a type -/

/-- One item between braces: a single value, or a key with its value. -/
inductive Braced where
  | single (v : Value)
  /-- The flag tells whether the key could be a field name. -/
  | entry (key value : Value) (nameLike : Bool)

/-- Whether a key could be a field name, judged by its first character. -/
def startsName : List Char → Bool
  | [] => false
  | c :: _ => isLetter c || c == '"'

/-- Whether the value is one of the words that are no field names. -/
def isReserved : Value → Bool
  | .bool _ | .null => true
  | _ => false

/-- The single values between braces. -/
def singles : List Braced → List Value
  | [] => []
  | .single v :: more => v :: singles more
  | .entry .. :: more => singles more

/-- The entries between braces. -/
def entries : List Braced → List (Value × Value)
  | [] => []
  | .single _ :: more => entries more
  | .entry k v _ :: more => (k, v) :: entries more

/-- Whether all keys could be field names. -/
def allNameLike : List Braced → Bool
  | [] => true
  | .single _ :: more => allNameLike more
  | .entry _ _ nameLike :: more => nameLike && allNameLike more

/-- A field name as text. -/
def nameOf : Value → String
  | .text s => s
  | v => v.scalarText

/-- What items between braces make: a set, a map, or a user-defined value if all keys could be
field names. -/
def ofBraced (items : List Braced) : Except ValueFailure Value :=
  if !(singles items).isEmpty && !(entries items).isEmpty then .error mixedBraces
  else if (entries items).isEmpty then .ok (.set (singles items))
  else if allNameLike items then .ok (.fields ((entries items).map fun (k, v) => (nameOf k, v)))
  else .ok (.map (entries items))

/-! ## Values -/

/-- The type declared for the item of a tuple. -/
def itemType? (type? : Option ColumnType) (index : Nat) : Option ColumnType :=
  match type? with
  | some (.tuple types) => types[index]?
  | _ => none

/-- A value read by a given reader that must use up the text. -/
def readAll (read : Step Value) (s : List Char) : Except ValueFailure Value := do
  let (v, rest) ← read s
  finish rest
  pure v

/-- Fits a value without parts to a declared type, if there is one. A text under a type with parts
is read as a literal by the given reader, which gets the text's length in bytes. -/
def typed (read : Nat → Option ColumnType → Step Value) (v : Value)
    (type? : Option ColumnType) : Except ValueFailure Value :=
  match type? with
  | none => .ok v
  | some type => match v with
    | .text s =>
      if type.isComposite then readAll (read (Bytes.lengthOf s.toList) (some type)) s.toList
      else v.fitScalar type
    | _ => v.fitScalar type

/-- Reads a key and its value. -/
def readEntry (size : Nat) (key value : Step Value) (s : List Char) :
    Except ValueFailure ((Value × Value) × List Char) := do
  let (k, s) ← key s
  let s ← expect size ':' s
  let (v, s) ← value s
  pure ((k, v), s)

/-- Reads a field name and its value. -/
def readField (size : Nat) (value : Step Value) (s : List Char) :
    Except ValueFailure ((String × Value) × List Char) := do
  let (name, s) ← readFieldName s
  let s ← expect size ':' s
  let (v, s) ← value s
  pure ((name, v), s)

/-- Reads an item between braces of which no type is known. -/
def readBraced (value : Step Value) (s : List Char) :
    Except ValueFailure (Braced × List Char) := do
  let s := trimStart s
  let nameLike := startsName s
  let (key, s) ← match s with
    | '"' :: rest => do
      let (name, rest) ← readQuoted '"' rest
      pure (Value.text (String.ofList name), rest)
    | _ => value s
  match trimStart s with
  | ':' :: rest => do
    let (v, rest) ← value rest
    pure (.entry key v (nameLike && !isReserved key), rest)
  | s => pure (.single key, s)

/-- Reads what stands between braces, by the declared type. -/
def readBraces (size : Nat) (value : Option ColumnType → Step Value)
    (type? : Option ColumnType) (s : List Char) : Except ValueFailure (Value × List Char) := do
  match type? with
  | some (.set element) =>
    let (items, s) ← readSequence '}' (fun _ => value (some element)) s
    pure (.set items, s)
  | some (.map key element) =>
    let (items, s) ←
      readSequence '}' (fun _ => readEntry size (value (some key)) (value (some element))) s
    pure (.map items, s)
  | some (.userDefined _) =>
    let (items, s) ← readSequence '}' (fun _ => readField size (value none)) s
    pure (.fields items, s)
  | _ =>
    let (items, s) ← readSequence '}' (fun _ => readBraced (value none)) s
    let v ← ofBraced items
    pure (v, s)

/-- A bracketed sequence is a set where a set is declared, and a list otherwise. -/
def ofBracketed (type? : Option ColumnType) (items : List Value) : Value :=
  match type? with
  | some (.set _) => .set items
  | _ => .list items

/-- Reads a value with at most so many levels of nested and re-read literals; `size` is the length
of the whole literal in bytes. -/
def readValue : Nat → Nat → Option ColumnType → List Char → Except ValueFailure (Value × List Char)
  | 0, _, _, _ => .error endless
  | levels + 1, size, type?, s => do
    let s := trimStart s
    match s with
    | [] => throw endOfLiteral
    | '\'' :: rest =>
      let (text, rest) ← readQuoted '\'' rest
      let v ← typed (readValue levels) (.text (String.ofList text)) type?
      pure (v, rest)
    | '[' :: rest =>
      let element? := type?.bind ColumnType.element?
      let (items, rest) ← readSequence ']' (fun _ => readValue levels size element?) rest
      pure (ofBracketed type? items, rest)
    | '{' :: rest => readBraces size (readValue levels size) type? rest
    | '(' :: rest =>
      let (items, rest) ←
        readSequence ')' (fun i => readValue levels size (itemType? type? i)) rest
      pure (.tuple items, rest)
    | _ => match bareWord s with
      | [] => throw (unexpected (String.ofList s))
      | word =>
        let v ← Value.ofBareWord word
        let v ← typed (readValue levels) v type?
        pure (v, afterBareWord s)

/-- Reads a complete literal of a declared type, if one is declared. -/
def parse (s : List Char) (type? : Option ColumnType) : Except ValueFailure Value :=
  readAll (readValue (s.length + 1) (Bytes.lengthOf s) type?) s

/-- Reads a list of values in parentheses, one for each of the given types. -/
def parseValues (s : List Char) (types : List (Option ColumnType)) :
    Except ValueFailure (List Value) := do
  let size := Bytes.lengthOf s
  let rest ← expect size '(' s
  let (values, rest) ←
    readSequence ')' (fun i => readValue (s.length + 1) size (types.getD i none)) rest
  finish rest
  if values.length ≠ types.length then throw (valueCount types.length values.length)
  pure values

end BulkTransfer.Literal
