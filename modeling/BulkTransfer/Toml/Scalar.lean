import BulkTransfer.Instant.Calendar
import BulkTransfer.Toml.Quoted

/-!
Numbers, switches and date-times of TOML documents. Each is a word without blanks, apart from the
blank that may stand between a date and a time.
-/

namespace BulkTransfer.Toml

open Text

/-! ## Numbers -/

/-- Digits without the underscores, each of which must stand between two digits. -/
def plainDigits? (isDigit : Char → Bool) (s : List Char) : Option (List Char) :=
  let runs := splitAll '_' s
  if runs.all fun run => !run.isEmpty && run.all isDigit then some runs.flatten else none

/-- Decimal digits of a whole number, which zero leads only alone. -/
def wholeDigits? (s : List Char) : Option (List Char) :=
  match plainDigits? Integer.isDigit s with
  | some ('0' :: _ :: _) => none
  | result => result

/-- The value of digits of a base. -/
def valueIn (base : Nat) (digits : List Char) : Nat :=
  digits.foldl (fun n c => base * n + (hexValue? c).getD 0) 0

/-- Whether a character is a digit of a base. -/
def isDigitIn (base : Nat) (c : Char) : Bool :=
  match hexValue? c with
  | some d => decide (d < base)
  | none => false

/-- Reads a whole number of a base behind its mark. -/
def readBase? (base : Nat) (s : List Char) : Option Int :=
  (plainDigits? (isDigitIn base) s).map fun digits => (valueIn base digits : Int)

/-- A sign and the text behind it. -/
def splitSign : List Char → List Char × List Char
  | '+' :: rest => (['+'], rest)
  | '-' :: rest => (['-'], rest)
  | s => ([], s)

/-- Reads a whole number. -/
def readInteger? (s : List Char) : Option Int :=
  match s with
  | '0' :: 'x' :: rest => readBase? 16 rest
  | '0' :: 'o' :: rest => readBase? 8 rest
  | '0' :: 'b' :: rest => readBase? 2 rest
  | _ =>
    let (sign, digits) := splitSign s
    (wholeDigits? digits).bind fun digits => Integer.readInt? (sign ++ digits)

/-- Whether a whole number is read at all: signed or unsigned, it has 128 bits. -/
def isReadable (i : Int) : Bool := decide (-(2 ^ 127) ≤ i) && decide (i < 2 ^ 128)

/-- The exponent of a number and the mark before it, or nothing. -/
def exponentText? : List Char → Option (List Char)
  | [] => some []
  | mark :: rest =>
    if mark = 'e' ∨ mark = 'E' then
      let (sign, digits) := splitSign rest
      (plainDigits? Integer.isDigit digits).map fun digits => 'e' :: sign ++ digits
    else none

/-- The fraction of a number and the point before it, or nothing. -/
def fractionText? : List Char → Option (List Char)
  | [] => some []
  | '.' :: rest => (plainDigits? Integer.isDigit rest).map ('.' :: ·)
  | _ => none

/-- The text of a fractional number without underscores. -/
def fractionalText? (s : List Char) : Option (List Char) :=
  let (sign, body) := splitSign s
  let isWhole := fun c : Char => Integer.isDigit c || c == '_'
  let isMantissa := fun c : Char => isWhole c || c == '.'
  let mantissa := body.takeWhile isMantissa
  match wholeDigits? (mantissa.takeWhile isWhole), fractionText? (mantissa.dropWhile isWhole),
      exponentText? (body.dropWhile isMantissa) with
  | some whole, some fraction, some exponent => some (sign ++ whole ++ fraction ++ exponent)
  | _, _, _ => none

/-- Reads a number that is not whole. One that is written with digits and too great is refused. -/
def readFloat? (s : List Char) : Option Binary64 :=
  let (sign, body) := splitSign s
  if body = "inf".toList then some (Binary64.infinity (sign = ['-']))
  else if body = "nan".toList then some Binary64.nan
  else match (fractionalText? s).bind Binary64.read? with
    | some x => if x.isFinite then some x else none
    | none => none

/-! ## Date-times -/

/-- The value of two digits. -/
def pair? (a b : Char) : Option Nat := Integer.readNatural? [a, b]

/-- Whether two digits make a number up to a bound. -/
def pairUpTo (high : Nat) (a b : Char) : Bool :=
  match pair? a b with
  | some n => decide (n ≤ high)
  | none => false

/-- Reads a date and gives its text. -/
def readDate? : Step (List Char)
  | a :: b :: c :: d :: '-' :: e :: f :: '-' :: g :: h :: rest =>
    match Integer.readNatural? [a, b, c, d], pair? e f, pair? g h with
    | some year, some month, some day =>
      if 1 ≤ month ∧ month ≤ 12 ∧ 1 ≤ day ∧ day ≤ CivilDate.daysOfMonth year month then
        some ([a, b, c, d, '-', e, f, '-', g, h], rest)
      else none
    | _, _, _ => none
  | _ => none

/-- The digits of a fraction of a second: nine at most, without zeros at the end. -/
def secondFraction (digits : List Char) : List Char :=
  match ((digits.take 9).reverse.dropWhile (· = '0')).reverse with
  | [] => ['0']
  | shown => shown

/-- Reads a time of the day and gives its text. Seconds may be missing. -/
def readTime? : Step (List Char)
  | a :: b :: ':' :: c :: d :: rest =>
    if pairUpTo 23 a b && pairUpTo 59 c d then
      let minutes := [a, b, ':', c, d]
      match rest with
      | ':' :: e :: f :: rest =>
        if pairUpTo 60 e f then
          let seconds := minutes ++ [':', e, f]
          match rest with
          | '.' :: rest =>
            let digits := rest.takeWhile Integer.isDigit
            if digits.isEmpty then none
            else some (seconds ++ '.' :: secondFraction digits, rest.dropWhile Integer.isDigit)
          | _ => some (seconds, rest)
        else none
      | ':' :: _ => none
      | _ => some (minutes, rest)
    else none
  | _ => none

/-- Reads the offset of a time, or nothing. -/
def readOffset? : List Char → Option (List Char)
  | [] => some []
  | ['Z'] | ['z'] => some ['Z']
  | [sign, a, b, ':', c, d] =>
    if (sign = '+' ∨ sign = '-') ∧ pairUpTo 23 a b ∧ pairUpTo 59 c d then
      let shown := if [a, b, c, d] = ['0', '0', '0', '0'] then '+' else sign
      some [shown, a, b, ':', c, d]
    else none
  | _ => none

/-- Reads a date, a time, or both with an offset, and gives the text in one spelling. -/
def readDatetime? (s : List Char) : Option (List Char) :=
  match readDate? s with
  | some (date, []) => some date
  | some (date, mark :: rest) =>
    if mark = 'T' ∨ mark = 't' ∨ mark = ' ' then
      match readTime? rest with
      | some (time, rest) => (readOffset? rest).map fun offset => date ++ 'T' :: time ++ offset
      | none => none
    else none
  | none => match readTime? s with
    | some (time, []) => some time
    | _ => none

/-! ## Words -/

/-- Whether a character may stand in a word. -/
def isWordChar (c : Char) : Bool :=
  isKeyChar c || c == '+' || c == '.' || c == ':'

/-- The value of a word. -/
def ofWord? (word : List Char) : Option Value :=
  if word = "true".toList then some (.boolean true)
  else if word = "false".toList then some (.boolean false)
  else match readInteger? word with
    | some i => if isReadable i then some (.integer i) else none
    | none => match readFloat? word with
      | some x => some (.float x)
      | none => (readDatetime? word).map fun text => .datetime (String.ofList text)

/-- Whether a blank and a digit stand here, as between a date and a time. -/
def isTimeNext : List Char → Bool
  | ' ' :: c :: _ => Integer.isDigit c
  | _ => false

/-- Takes the next word; a date takes the time behind a blank with it. -/
def takeWord (s : List Char) : List Char × List Char :=
  let word := s.takeWhile isWordChar
  let rest := s.dropWhile isWordChar
  match readDate? word with
  | some (_, []) =>
    if isTimeNext rest then
      let time := rest.drop 1
      (word ++ ' ' :: time.takeWhile isWordChar, time.dropWhile isWordChar)
    else (word, rest)
  | _ => (word, rest)

/-- Reads a word as a value. -/
def readWord? (s : List Char) : Option (Value × List Char) :=
  let (word, rest) := takeWord s
  (ofWord? word).map fun v => (v, rest)

end BulkTransfer.Toml
