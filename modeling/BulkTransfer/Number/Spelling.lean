import BulkTransfer.Number.Shortest

/-!
How floating-point numbers are written and read as decimal text.

Two written forms share the shortest digits: the plain form never has an exponent and writes a
whole number without a point; the data form marks every number as fractional by a point or an
exponent and turns to the exponent outside `1e-5 ≤ |x| < 1e16`.
-/

namespace BulkTransfer.Binary64

/-- Digits with the point moved: positional notation without exponent. -/
def positional (digits : List Char) (exponent : Int) : List Char :=
  if 0 ≤ exponent then digits ++ List.replicate exponent.toNat '0'
  else
    let places := (-exponent).toNat
    if digits.length ≤ places then
      '0' :: '.' :: (List.replicate (places - digits.length) '0' ++ digits)
    else digits.take (digits.length - places) ++ '.' :: digits.drop (digits.length - places)

/-- One digit before the point, then an exponent with its sign. -/
def exponential (digits : List Char) (exponent : Int) : List Char :=
  let lead := exponent + digits.length - 1
  let fraction := match digits.drop 1 with
    | [] => []
    | more => '.' :: more
  let sign := if lead < 0 then '-' else '+'
  digits.take 1 ++ fraction ++ 'e' :: sign :: Integer.digits lead.natAbs

/-- The sign of a number as text. -/
def signText (x : Binary64) : List Char := if x.isNegative then ['-'] else []

/-- The plain form: the fewest digits, never an exponent, `3` for three. -/
def plain (x : Binary64) : List Char :=
  if x.isNaN then "NaN".toList
  else if x.isInfinite then x.signText ++ "inf".toList
  else if x.mantissa = 0 then x.signText ++ ['0']
  else
    let s := Shortest.ofFinite .up x
    x.signText ++ positional (Integer.digits s.digits) s.exponent

/-- The plain form as a string. -/
def plainText (x : Binary64) : String := String.ofList x.plain

/-- The data form of a finite number: always recognisable as fractional. -/
def dataForm (x : Binary64) : List Char :=
  if x.mantissa = 0 then x.signText ++ "0.0".toList
  else
    let s := Shortest.ofFinite .toEven x
    let digits := Integer.digits s.digits
    let lead := s.exponent + digits.length - 1
    x.signText ++
      if -5 ≤ lead ∧ lead < 16 then
        if 0 ≤ s.exponent then positional digits s.exponent ++ ".0".toList
        else positional digits s.exponent
      else exponential digits s.exponent

/-! ## Reading -/

/-- A decimal without its sign: the digits before and after the point and the exponent. -/
structure Unsigned where
  whole : List Char
  fraction : List Char
  exponent : Int

/-- Reads the exponent behind the digits: nothing, or a mark, an optional sign and digits. -/
def readExponent? : List Char → Option Int
  | [] => some 0
  | c :: rest => if c = 'e' ∨ c = 'E' then Integer.readInt? rest else none

/-- Reads digits with an optional point and an optional exponent; one digit must be there. -/
def readUnsigned? (s : List Char) : Option Unsigned :=
  let whole := s.takeWhile Integer.isDigit
  let rest := s.dropWhile Integer.isDigit
  let (fraction, rest) := match rest with
    | '.' :: more => (more.takeWhile Integer.isDigit, more.dropWhile Integer.isDigit)
    | _ => ([], rest)
  if whole.isEmpty && fraction.isEmpty then none
  else (readExponent? rest).map fun e => ⟨whole, fraction, e⟩

/-- Reads a number without its sign; the special values have no case. -/
def readMagnitude? (negative : Bool) (s : List Char) : Option Binary64 :=
  let word := s.map Char.toLower
  if word = "inf".toList ∨ word = "infinity".toList then some (infinity negative)
  else if word = "nan".toList then some (if negative then nan.neg else nan)
  else match readUnsigned? s with
    | none => none
    | some u => match Integer.readFrom? 0 (u.whole ++ u.fraction) with
      | none => none
      | some digits => some (ofDecimal negative digits (u.exponent - u.fraction.length))

/-- Reads the decimal text of a number and rounds it to the nearest. -/
def read? : List Char → Option Binary64
  | '-' :: rest => readMagnitude? true rest
  | '+' :: rest => readMagnitude? false rest
  | s => readMagnitude? false s

end BulkTransfer.Binary64
