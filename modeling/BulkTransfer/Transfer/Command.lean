import BulkTransfer.Text.Pattern
import BulkTransfer.Text.Word
import BulkTransfer.Transfer.Basic

/-!
Commands of the form

    COPY <table> [(<column>, ...)] TO   ('<path>' | STDOUT) [WITH <key>=<value> [AND ...]]
    COPY <table> [(<column>, ...)] FROM ('<path>' | STDIN)  [WITH <key>=<value> [AND ...]]

Keywords have no case. Paths and values may stand in single quotes, with quotes inside written
twice, in double quotes, or bare.
-/

namespace BulkTransfer.Command

open Text Text.Pattern

/-- Whether a line is meant as a command: it starts with the word, whatever follows. -/
def isCommand (line : String) : Bool :=
  equalsIgnoringAsciiCase ((trimStart line.toList).take 4) "COPY".toList

/-- The pieces of a command as they are written. -/
structure Pieces where
  table : List Char
  columns? : Option (List Char)
  direction : Direction
  target : List Char
  clause? : Option (List Char)

/-- Whether the character may stand in a table name. -/
def isTableChar (c : Char) : Bool := isWord c || c == '.' || c == '"'

/-- The clause of options, if there is one, and the end of the command. -/
def matchClause (make : Option (List Char) → Pieces) : Next Pieces := fun s =>
  orElse
    (someBlanks (keyword "WITH".toList (someBlanks (fewest fun m => finish (make (some m))))) s)
    fun _ => finish (make none) s

/-- The target and what follows it. -/
def matchTarget (make : List Char → Option (List Char) → Pieces) : Next Pieces :=
  someBlanks (operand fun m => matchClause (make m))

/-- The direction and what follows it, which must begin a word. -/
def matchDirection (make : Direction → List Char → Option (List Char) → Pieces)
    (behindWord : Bool) : Next Pieces := fun s =>
  if behindWord then none
  else orElse (keyword "TO".toList (matchTarget (make .exporting)) s) fun _ =>
    keyword "FROM".toList (matchTarget (make .importing)) s

/-- Blanks and the direction; the flag tells whether a word character stands before the blanks. -/
def matchBlanksDirection (make : Direction → List Char → Option (List Char) → Pieces)
    (behindWord : Bool) : Next Pieces :=
  greedy isBlank fun m => matchDirection make (behindWord && m.isEmpty)

/-- Whether a text ends in a word character. -/
def endsInWord (s : List Char) : Bool :=
  match s.getLast? with
  | some c => isWord c
  | none => false

/-- The columns, if there are any, and what follows them. Blanks may stand before the columns, or
in their place. -/
def matchColumns (table : List Char) : Next Pieces :=
  greedy isBlank fun m s =>
    orElse
      (mark '(' (greedy (· != ')') fun columns =>
        mark ')' (matchBlanksDirection (fun d t c => ⟨table, some columns, d, t, c⟩) false)) s)
      fun _ =>
        matchBlanksDirection (fun d t c => ⟨table, none, d, t, c⟩)
          (endsInWord table && m.isEmpty) s

/-- The pieces of a command. -/
def pieces? : Next Pieces :=
  blanks (keyword "COPY".toList (someBlanks (greedySome isTableChar matchColumns)))

/-- Takes two quotes for one. -/
def undouble : List Char → List Char
  | '\'' :: '\'' :: rest => '\'' :: undouble rest
  | c :: rest => c :: undouble rest
  | [] => []

/-- The text between a first and a last quote, if both are there. -/
def between? (quote : Char) (s : List Char) : Option (List Char) :=
  match s with
  | c :: rest => if c = quote then dropEnd? [quote] rest else none
  | [] => none

/-- A word without its quotes. -/
def unquote (s : List Char) : List Char :=
  match between? '\'' s with
  | some inner => undouble inner
  | none => (between? '"' s).getD s

/-- The target that a word names. -/
def targetOf (home : String) (word : List Char) : Target :=
  if equalsIgnoringAsciiCase word "STDOUT".toList then .stdout
  else if equalsIgnoringAsciiCase word "STDIN".toList then .stdin
  else .path (Path.expandHome home (String.ofList (unquote word)))

/-- The name in a part of a list, without blanks and quotes around it; an empty one is none. -/
def nameIn? (part : List Char) : Option String :=
  match dropEnds (· == '"') (trim part) with
  | [] => none
  | name => some (String.ofList name)

/-- The names of a list with commas. -/
def splitNames (list : List Char) : List String := (splitAll ',' list).filterMap nameIn?

/-! ## Options -/

/-- Whether the character may begin the name of an option. -/
def isKeyStart (c : Char) : Bool := c.isAlpha || c == '_'

/-- An option, the text before it and the text behind it. -/
structure FoundOption where
  gap : List Char
  key : List Char
  value : List Char
  rest : List Char

/-- An option at the start of a text. -/
def optionHere? (gap : List Char) : List Char → Option FoundOption
  | [] => none
  | c :: rest =>
    if isKeyStart c then
      greedy isWord (fun m =>
        blanks (mark '=' (blanks (operand fun value rest => some ⟨gap, c :: m, value, rest⟩)))) rest
    else none

/-- The first option in a text; `passed` holds the characters before it, last one first. -/
def nextOption? (passed : List Char) : List Char → Option FoundOption
  | [] => none
  | c :: rest => match optionHere? passed.reverse (c :: rest) with
    | some found => some found
    | none => nextOption? (c :: passed) rest

/-- Reads the options of a clause. Between two of them stands `AND` or nothing; every option takes
at least two characters, so as many steps as characters suffice. -/
def readOptions : Nat → Bool → Options → List Char → Except Failure Options
  | 0, _, options, _ => .ok options
  | steps + 1, first, options, s =>
    match nextOption? [] s with
    | none =>
      let rest := trim s
      if rest.isEmpty then .ok options
      else .error (.invalidInput (.unexpectedOption (String.ofList rest)))
    | some found =>
      let gap := trim found.gap
      if gap.isEmpty || (!first && equalsIgnoringAsciiCase gap "AND".toList) then
        readOptions steps false
          (options.set (String.ofList found.key) (String.ofList (unquote found.value))) found.rest
      else .error (.invalidInput (.unexpectedOption (String.ofList gap)))

/-- Reads the body of a clause of options. -/
def parseOptions (clause : List Char) : Except Failure Options :=
  readOptions (clause.length + 1) true .empty clause

/-- Reads a command. -/
def parse (home : String) (command : String) : Except Failure Transfer :=
  match pieces? command.toList with
  | none => .error (.invalidInput (.improperCommand (trimmed command)))
  | some p =>
    let table := String.ofList (p.table.filter (· != '"'))
    let names := (p.columns?.map splitNames).getD []
    if p.columns?.isSome && names.isEmpty then .error (.invalidInput .emptyColumnList)
    else match (p.clause?.map parseOptions).getD (.ok .empty) with
      | .error e => .error e
      | .ok options => .ok ⟨table, names, p.direction, targetOf home p.target, options⟩

end BulkTransfer.Command
