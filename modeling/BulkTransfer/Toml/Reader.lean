import BulkTransfer.Toml.Scalar
import BulkTransfer.Toml.Table

/-!
Reading of TOML documents: lines with a header, with a key and its value, or with nothing but a
comment. At most 80 arrays and inline tables may be open at once.
-/

namespace BulkTransfer.Toml

/-! ## Values -/

/-- Reads items up to the closing bracket, behind blanks and line ends. A comma may stand behind
the last item. Each step passes at least one character, so as many steps as characters suffice. -/
def readItems (value : Step Value) : Nat → Step (List Value)
  | 0, _ => none
  | steps + 1, s => match skipSpace s with
    | none => none
    | some (']' :: rest) => some ([], rest)
    | some s => match value s with
      | none => none
      | some (v, rest) => match skipSpace rest with
        | some (']' :: rest) => some ([v], rest)
        | some (',' :: rest) =>
          (readItems value steps rest).map fun (more, rest) => (v :: more, rest)
        | _ => none

/-- Reads a key, the equals sign and a value. -/
def readPair (value : Step Value) : Step (List String × Value) := fun s =>
  match readKey s with
  | some (key, '=' :: rest) =>
    (value (skipBlank rest)).map fun (v, rest) => ((key, v), rest)
  | _ => none

/-- Reads the entries of an inline table up to its closing brace. A comma may stand behind the last
one. -/
def readEntries (value : Step Value) : Nat → Entries → Step Entries
  | 0, _, _ => none
  | steps + 1, entries, s => match skipSpace s with
    | none => none
    | some ('}' :: rest) => some (entries, rest)
    | some s => match readPair value s with
      | none => none
      | some ((key, v), rest) => match entries.addValue? key v, skipSpace rest with
        | some entries, some ('}' :: rest) => some (entries, rest)
        | some entries, some (',' :: rest) => readEntries value steps entries rest
        | _, _ => none

/-- How many arrays and inline tables may be open at once. -/
def maxNesting : Nat := 80

/-- Reads a value; `room` more arrays and inline tables may be opened. -/
def readValue (room : Nat) (s : List Char) : Option (Value × List Char) :=
  match s with
  | '"' :: _ | '\'' :: _ => (readString? s).map fun (text, rest) => (.string (String.ofList text), rest)
  | '[' :: rest => match room with
    | 0 => none
    | inner + 1 =>
      (readItems (readValue inner) (rest.length + 1) rest).map fun (items, rest) =>
        (.array items, rest)
  | '{' :: rest => match room with
    | 0 => none
    | inner + 1 =>
      (readEntries (readValue inner) (rest.length + 1) [] rest).map fun (entries, rest) =>
        (.table entries.fields, rest)
  | _ => readWord? s

/-! ## Lines -/

/-- A document while it is read: all its tables and the header in force. -/
structure Draft where
  root : Entries
  /-- The way to the table that takes the next keys. -/
  header : List String

/-- Nothing but a comment may stand behind the content of a line. -/
def endLine (s : List Char) : Option (List Char) :=
  match skipComment (skipBlank s) with
  | none => none
  | some [] => some []
  | some rest => skipNewline? rest

/-- Adds the value of a line. -/
def Draft.addValue? (d : Draft) (key : List String) (v : Value) : Option Draft :=
  (d.root.changeAt? (fun entries => entries.addValue? key v) d.header).map fun root =>
    { d with root := root }

/-- Turns to the table of a header. -/
def Draft.turn? (d : Draft) (repeated : Bool) (key : List String) : Option Draft :=
  match key.getLast? with
  | none => none
  | some last =>
    let change := if repeated then Entries.append? last else Entries.define? last
    (d.root.changeAt? change key.dropLast).map fun root => ⟨root, key⟩

/-- Reads a line. -/
def readLineOf (d : Draft) (s : List Char) : Option (Draft × List Char) :=
  match skipBlank s with
  | '[' :: '[' :: rest => match readKey rest with
    | some (key, ']' :: ']' :: rest) => (d.turn? true key).map fun d => (d, rest)
    | _ => none
  | '[' :: rest => match readKey rest with
    | some (key, ']' :: rest) => (d.turn? false key).map fun d => (d, rest)
    | _ => none
  | [] => some (d, [])
  | '#' :: rest => some (d, '#' :: rest)
  | '\n' :: rest => some (d, '\n' :: rest)
  | '\r' :: rest => some (d, '\r' :: rest)
  | s => match readPair (readValue maxNesting) s with
    | some ((key, v), rest) => (d.addValue? key v).map fun d => (d, rest)
    | none => none

/-- Reads lines to the end, in at most so many steps. -/
def readLinesOf : Nat → Draft → List Char → Option Draft
  | _, d, [] => some d
  | 0, _, _ => none
  | steps + 1, d, s => match readLineOf d s with
    | none => none
    | some (d, rest) => match endLine rest with
      | none => none
      | some rest => readLinesOf steps d rest

/-- The fields of the document of a text; `none` where the text is malformed. A mark of the byte
order may lead. -/
def parse? (text : String) : Option (List (String × Value)) :=
  let s := match text.toList with
    | '\ufeff' :: rest => rest
    | s => s
  (readLinesOf (s.length + 1) ⟨[], []⟩ s).map fun d => d.root.fields

end BulkTransfer.Toml
