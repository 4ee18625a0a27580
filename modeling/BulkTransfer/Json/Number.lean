import BulkTransfer.Json.Cursor

/-!
JSON numbers. Whole numbers of 64 bits stay whole. Every other number is computed from at most 64
bits of leading digits and one multiplication or division by a power of ten, each rounded; digits
that no longer fit count as zeros before the point and are dropped after it.
-/

namespace BulkTransfer.Json

/-- The greatest collected digits. -/
def maxDigits : Nat := 18446744073709551615

/-- The floating-point number nearest to a power of ten. -/
def powerOfTen (n : Nat) : Binary64 := Binary64.ofDecimal false 1 n

/-- Divides by powers of ten until the exponent is spent; after four steps nothing is left of any
number. -/
def scaleDown (x : Binary64) : Nat → Nat → Binary64
  | 0, _ => Binary64.zero false
  | steps + 1, n =>
    if n ≤ 308 then x.divFinite (powerOfTen n)
    else if x.mantissa = 0 then x
    else scaleDown (x.divFinite (powerOfTen 308)) steps (n - 308)

/-- Digits times a power of ten, or `none` beyond the greatest number. -/
def scale? (digits : Nat) (exponent : Int) : Option Binary64 :=
  let x := Binary64.ofInt digits
  if 0 ≤ exponent then
    if exponent ≤ 308 then
      let y := x.mulFinite (powerOfTen exponent.toNat)
      if y.isInfinite then none else some y
    else if x.mantissa = 0 then some x
    else none
  else some (scaleDown x 4 exponent.natAbs)

/-- The number that sign, digits and exponent make. -/
def scaled (positive : Bool) (digits : Nat) (exponent : Int) (c : Cursor) :
    Except Failure (Json × Cursor) :=
  match scale? digits exponent with
  | some x => .ok (.float (if positive then x else x.neg), c)
  | none => c.fail .numberOutOfRange

/-- Passes digits. -/
def passDigits (p : Position) : List Char → Cursor
  | [] => ⟨[], p⟩
  | d :: rest => if Integer.isDigit d then passDigits (Cursor.after p d) rest else ⟨d :: rest, p⟩

/-- The greatest exponent that is counted. -/
def maxExponent : Nat := 2147483647

/-- Collects the digits of an exponent; `none` once the count leaves the range. -/
def collectExponent (value : Nat) (p : Position) : List Char → Option Nat × Cursor
  | [] => (some value, ⟨[], p⟩)
  | d :: rest => match Integer.digitValue? d with
    | none => (some value, ⟨d :: rest, p⟩)
    | some n =>
      if maxExponent < 10 * value + n then (none, ⟨rest, Cursor.after p d⟩)
      else collectExponent (10 * value + n) (Cursor.after p d) rest

/-- Keeps an exponent in its range. -/
def clampExponent (e : Int) : Int := max (-2147483648) (min 2147483647 e)

/-- Reads the exponent behind the letter `e`. -/
def readExponent (positive : Bool) (digits : Nat) (exponent : Int) (c : Cursor) :
    Except Failure (Json × Cursor) :=
  let (up, c) := match c.rest with
    | '+' :: rest => (true, c.pass '+' rest)
    | '-' :: rest => (false, c.pass '-' rest)
    | _ => (true, c)
  match c.rest with
  | [] => c.fail .endInValue
  | d :: rest => match Integer.digitValue? d with
    | none => c.failNext .invalidNumber
    | some n => match collectExponent n (Cursor.after c.position d) rest with
      | (some e, c) =>
        scaled positive digits (clampExponent (if up then exponent + e else exponent - e)) c
      | (none, c) =>
        if digits ≠ 0 ∧ up then c.fail .numberOutOfRange
        else .ok (.float (Binary64.zero !positive), passDigits c.position c.rest)

/-- Ends a number whose digits are read: an exponent may follow. -/
def finishNumber (positive : Bool) (digits : Nat) (exponent : Int) (c : Cursor) :
    Except Failure (Json × Cursor) :=
  match c.rest with
  | 'e' :: rest => readExponent positive digits exponent (c.pass 'e' rest)
  | 'E' :: rest => readExponent positive digits exponent (c.pass 'E' rest)
  | _ => scaled positive digits exponent c

/-- Collects the digits after the point, as long as they fit. -/
def collectFraction (digits : Nat) (places : Nat) (p : Position) :
    List Char → Nat × Nat × Cursor
  | [] => (digits, places, ⟨[], p⟩)
  | d :: rest => match Integer.digitValue? d with
    | none => (digits, places, ⟨d :: rest, p⟩)
    | some n =>
      if maxDigits < 10 * digits + n then (digits, places, passDigits p (d :: rest))
      else collectFraction (10 * digits + n) (places + 1) (Cursor.after p d) rest

/-- Reads the digits behind the point. -/
def readFraction (positive : Bool) (digits : Nat) (exponent : Int) (c : Cursor) :
    Except Failure (Json × Cursor) :=
  match c.rest with
  | [] => c.failNext .endInValue
  | d :: _ =>
    if Integer.isDigit d then
      let (digits, places, c) := collectFraction digits 0 c.position c.rest
      finishNumber positive digits (exponent - places) c
    else c.failNext .invalidNumber

/-- Counts the whole digits that no longer fit. -/
def countDigits (n : Nat) (p : Position) : List Char → Nat × Cursor
  | [] => (n, ⟨[], p⟩)
  | d :: rest =>
    if Integer.isDigit d then countDigits (n + 1) (Cursor.after p d) rest else (n, ⟨d :: rest, p⟩)

/-- Goes on behind the whole digits of a number that is not whole. -/
def readTail (positive : Bool) (digits : Nat) (exponent : Int) (c : Cursor) :
    Except Failure (Json × Cursor) :=
  match c.rest with
  | '.' :: rest => readFraction positive digits exponent (c.pass '.' rest)
  | _ => finishNumber positive digits exponent c

/-- A whole number, which stays whole if it fits; minus zero does not. -/
def wholeNumber (positive : Bool) (digits : Nat) : Json :=
  if positive then .int digits
  else if digits = 0 ∨ 9223372036854775808 < digits then .float (Binary64.ofInt digits).neg
  else .int (-(digits : Int))

/-- Collects the whole digits, as long as they fit; the flag tells whether they all did. -/
def collectWhole (digits : Nat) (p : Position) : List Char → Nat × Bool × Cursor
  | [] => (digits, true, ⟨[], p⟩)
  | d :: rest => match Integer.digitValue? d with
    | none => (digits, true, ⟨d :: rest, p⟩)
    | some n =>
      if maxDigits < 10 * digits + n then (digits, false, ⟨d :: rest, p⟩)
      else collectWhole (10 * digits + n) (Cursor.after p d) rest

/-- Goes on behind whole digits: they are the number unless a point or an exponent follows. -/
def readWhole (positive : Bool) (digits : Nat) (c : Cursor) : Except Failure (Json × Cursor) :=
  match c.rest with
  | '.' :: _ | 'e' :: _ | 'E' :: _ => readTail positive digits 0 c
  | _ => .ok (wholeNumber positive digits, c)

/-- Reads a number behind its sign. Zero leads no further digits. -/
def readNumber (positive : Bool) (c : Cursor) : Except Failure (Json × Cursor) :=
  match c.rest with
  | [] => c.fail .endInValue
  | d :: rest => match Integer.digitValue? d with
    | none => c.failNext .invalidNumber
    | some 0 =>
      let c := c.pass d rest
      match c.rest with
      | e :: _ => if Integer.isDigit e then c.failNext .invalidNumber else readWhole positive 0 c
      | [] => readWhole positive 0 c
    | some n =>
      match collectWhole n (Cursor.after c.position d) rest with
      | (digits, true, c) => readWhole positive digits c
      | (digits, false, c) =>
        let (more, c) := countDigits 0 c.position c.rest
        readTail positive digits more c

end BulkTransfer.Json
