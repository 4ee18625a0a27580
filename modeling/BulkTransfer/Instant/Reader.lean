import BulkTransfer.Instant.Basic
import BulkTransfer.Text.Blank

/-!
Reading of instants. The spellings are tried in order: the strict form with offset, looser forms
with offset, forms without offset taken as UTC, a plain date, and a count of milliseconds.

A spelling is a list of parts. Numbers of the loose forms may follow blanks and have fewer digits;
the year may carry a sign and then any number of digits.
-/

namespace BulkTransfer.Instant

open Text (isBlank trimStart trim)

/-- What reading has found so far. -/
structure Reading where
  year : Int
  month : Nat
  day : Nat
  hour : Nat
  minute : Nat
  second : Nat
  nanos : Nat
  offset : Int
  deriving Repr

/-- Nothing read: the epoch's midnight. -/
def Reading.start : Reading := ⟨1970, 1, 1, 0, 0, 0, 0, 0⟩

/-- A part of a spelling. -/
inductive Part where
  | year
  | month
  | day
  | hour
  | minute
  | second
  /-- An optional point and digits. -/
  | fraction
  /-- A signed distance from UTC. -/
  | offset
  /-- One given character. -/
  | mark (c : Char)
  /-- Any number of blanks. -/
  | blanks
  deriving DecidableEq, Repr

/-- Takes between `least` and `most` digits. -/
def takeNumber (least most : Nat) (s : List Char) : Option (Nat × List Char) :=
  let found := (s.take most).takeWhile Integer.isDigit
  if found.length < least then none
  else (Integer.readNatural? found).map fun n => (n, s.drop found.length)

/-- Takes a number that may follow blanks. -/
def takeLoose (most : Nat) (s : List Char) : Option (Nat × List Char) :=
  takeNumber 1 most (trimStart s)

/-- Takes a year: up to four digits, or a sign and any number of digits. -/
def takeYear (s : List Char) : Option (Int × List Char) :=
  match trimStart s with
  | '-' :: rest => (takeNumber 1 rest.length rest).map fun (n, r) => (-(n : Int), r)
  | '+' :: rest => (takeNumber 1 rest.length rest).map fun (n, r) => ((n : Int), r)
  | rest => (takeNumber 1 4 rest).map fun (n, r) => ((n : Int), r)

/-- Takes the digits behind a point as nanoseconds; digits past the ninth are dropped. -/
def takeFraction (s : List Char) : Option (Nat × List Char) :=
  match s with
  | '.' :: rest =>
    (takeNumber 1 9 rest).map fun (n, r) =>
      (n * 10 ^ (9 - (rest.length - r.length)), r.dropWhile Integer.isDigit)
  | _ => some (0, s)

/-- The minus sign of typography, which an offset may carry. -/
def typographicMinus : Char := Char.ofNat 0x2212

/-- The sign of an offset. -/
def takeSign : List Char → Option (Bool × List Char)
  | [] => none
  | c :: rest =>
    if c = '+' then some (false, rest)
    else if c = '-' ∨ c = typographicMinus then some (true, rest)
    else none

/-- Takes exactly two digits. -/
def takePair (s : List Char) : Option (Nat × List Char) := takeNumber 2 2 s

/-- Takes hours and minutes of an offset; `between` passes what may stand between them. -/
def takeOffset (between : List Char → Option (List Char)) (s : List Char) :
    Option (Int × List Char) := do
  let (negative, s) ← takeSign s
  let (hours, s) ← takePair s
  let s ← between s
  let (minutes, s) ← takePair s
  if 60 ≤ minutes then none
  let seconds : Int := hours * 3600 + minutes * 60
  some (if negative then -seconds else seconds, s)

/-- Passes colons and blanks. -/
def passSeparators (s : List Char) : Option (List Char) :=
  some (s.dropWhile fun c => c == ':' || isBlank c)

/-- Passes one given character. -/
def passMark (c : Char) : List Char → Option (List Char)
  | [] => none
  | d :: rest => if d = c then some rest else none

/-- Reads one part of a loose spelling. -/
def readPart (part : Part) (r : Reading) (s : List Char) : Option (Reading × List Char) :=
  match part with
  | .year => (takeYear s).map fun (n, rest) => ({ r with year := n }, rest)
  | .month => (takeLoose 2 s).map fun (n, rest) => ({ r with month := n }, rest)
  | .day => (takeLoose 2 s).map fun (n, rest) => ({ r with day := n }, rest)
  | .hour => (takeLoose 2 s).map fun (n, rest) => ({ r with hour := n }, rest)
  | .minute => (takeLoose 2 s).map fun (n, rest) => ({ r with minute := n }, rest)
  | .second => (takeLoose 2 s).map fun (n, rest) => ({ r with second := n }, rest)
  | .fraction => (takeFraction s).map fun (n, rest) => ({ r with nanos := n }, rest)
  | .offset => (takeOffset passSeparators (trimStart s)).map fun (n, rest) =>
      ({ r with offset := n }, rest)
  | .mark c => (passMark c s).map fun rest => (r, rest)
  | .blanks => some (r, trimStart s)

/-- Reads the parts of a loose spelling, which must use up the text. -/
def readParts : List Part → Reading → List Char → Option Reading
  | [], r, [] => some r
  | [], _, _ :: _ => none
  | part :: more, r, s => match readPart part r s with
    | some (r, rest) => readParts more r rest
    | none => none

/-- The instant of what was read, if all fields are in range. Second 60 is a leap second. -/
def Reading.toInstant? (r : Reading) : Option Instant :=
  let date : CivilDate := ⟨r.year, r.month, r.day⟩
  if !date.isValid || 23 < r.hour || 59 < r.minute || 60 < r.second then none
  else if r.offset ≤ -dayLength ∨ dayLength ≤ r.offset then none
  else
    let leap := r.second == 60
    let second := if leap then 59 else r.second
    let nanos := if leap then r.nanos + 1000000000 else r.nanos
    ofSeconds? (date.toDays * dayLength + r.hour * 3600 + r.minute * 60 + second - r.offset) nanos

/-- Reads the strict form: fixed widths, `T`, `t` or a blank between date and time, and `Z`, `z`
or an offset with a colon. -/
def readStrict? (s : List Char) : Option Instant := do
  let (year, s) ← takeNumber 4 4 s
  let s ← passMark '-' s
  let (month, s) ← takePair s
  let s ← passMark '-' s
  let (day, s) ← takePair s
  let s ← match s with
    | 'T' :: rest | 't' :: rest | ' ' :: rest => some rest
    | _ => none
  let (hour, s) ← takePair s
  let s ← passMark ':' s
  let (minute, s) ← takePair s
  let s ← passMark ':' s
  let (second, s) ← takePair s
  let (nanos, s) ← takeFraction s
  let (offset, s) ← match s with
    | 'Z' :: rest | 'z' :: rest => some (0, rest)
    | _ => takeOffset (passMark ':') s
  if !s.isEmpty then none
  Reading.toInstant? ⟨year, month, day, hour, minute, second, nanos, offset⟩

/-- The parts of a date. -/
def dateParts : List Part := [.year, .mark '-', .month, .mark '-', .day]

/-- The loose spellings of date and time, in the order in which they are tried. -/
def looseSpellings : List (List Part) :=
  let minutes : List Part := [.hour, .mark ':', .minute]
  let seconds : List Part := minutes ++ [.mark ':', .second, .fraction]
  [ dateParts ++ .blanks :: seconds ++ [.offset],
    dateParts ++ .mark 'T' :: seconds ++ [.offset],
    dateParts ++ .blanks :: minutes ++ [.offset],
    dateParts ++ .blanks :: seconds,
    dateParts ++ .mark 'T' :: seconds,
    dateParts ++ .blanks :: minutes,
    dateParts ]

/-- Reads one loose spelling. -/
def readLoose? (parts : List Part) (s : List Char) : Option Instant :=
  (readParts parts Reading.start s).bind Reading.toInstant?

/-- Reads any spelling of an instant, blanks around it apart. -/
def read? (s : List Char) : Option Instant :=
  let s := trim s
  match readStrict? s with
  | some t => some t
  | none => match looseSpellings.findSome? fun parts => readLoose? parts s with
    | some t => some t
    | none => (Integer.readSigned? s).bind ofMillis?

end BulkTransfer.Instant
