import BulkTransfer.Number.Integer

/-!
Binary floating-point numbers of 64 bits as their bit patterns, with the operations done in exact
integer arithmetic. A finite number is `± mantissa · 2 ^ exponent`; a ratio of naturals becomes the
nearest number, a half going to the even neighbour.
-/

namespace BulkTransfer

/-- A floating-point number, given by its bits: sign, eleven bits of exponent, 52 of fraction. -/
structure Binary64 where
  bits : UInt64
  deriving DecidableEq, Repr, Inhabited

namespace Binary64

/-- Whether the sign bit is set. -/
def isNegative (x : Binary64) : Bool := 2 ^ 63 ≤ x.bits.toNat

/-- The eleven bits of the exponent. -/
def exponentField (x : Binary64) : Nat := x.bits.toNat / 2 ^ 52 % 2 ^ 11

/-- The 52 bits of the fraction. -/
def fraction (x : Binary64) : Nat := x.bits.toNat % 2 ^ 52

/-- Whether the number is no number. -/
def isNaN (x : Binary64) : Bool := x.exponentField == 2047 && x.fraction != 0

/-- Whether the number is one of the infinities. -/
def isInfinite (x : Binary64) : Bool := x.exponentField == 2047 && x.fraction == 0

/-- Whether the number is neither infinite nor NaN. -/
def isFinite (x : Binary64) : Bool := x.exponentField != 2047

/-- The integer that the power of two multiplies. -/
def mantissa (x : Binary64) : Nat :=
  if x.exponentField = 0 then x.fraction else 2 ^ 52 + x.fraction

/-- The power of two that multiplies the mantissa. -/
def exponent (x : Binary64) : Int := (max x.exponentField 1 : Nat) - 1075

/-- The magnitude as a ratio of naturals. -/
def ratio (x : Binary64) : Nat × Nat :=
  (x.mantissa * 2 ^ x.exponent.toNat, 2 ^ (-x.exponent).toNat)

/-- The number with the given sign and magnitude bits. -/
def ofParts (negative : Bool) (magnitude : Nat) : Binary64 :=
  ⟨UInt64.ofNat ((if negative then 2 ^ 63 else 0) + magnitude)⟩

/-- The quiet NaN. -/
def nan : Binary64 := ⟨0x7ff8000000000000⟩

/-- The infinity of a sign. -/
def infinity (negative : Bool) : Binary64 := ofParts negative (2047 * 2 ^ 52)

/-- The zero of a sign. -/
def zero (negative : Bool) : Binary64 := ofParts negative 0

/-- The quotient rounded to the nearest natural, a half to the even one. -/
def roundHalfEven (num den : Nat) : Nat :=
  let quotient := num / den
  let rest := 2 * (num % den)
  if rest < den then quotient
  else if den < rest then quotient + 1
  else quotient + quotient % 2

/-- The greatest power of two that is at most the positive ratio, as its exponent. -/
def floorLog2 (num den : Nat) : Int :=
  let guess : Int := (Nat.log2 num : Int) - Nat.log2 den
  if den * 2 ^ guess.toNat ≤ num * 2 ^ (-guess).toNat then guess else guess - 1

/-- The ratio over a power of two, rounded to the nearest natural. -/
def roundAt (num den : Nat) (power : Int) : Nat :=
  roundHalfEven (num * 2 ^ (-power).toNat) (den * 2 ^ power.toNat)

/-- The nearest number to a ratio. -/
def ofRatio (negative : Bool) (num den : Nat) : Binary64 :=
  if num = 0 then zero negative
  else
    let power := max (floorLog2 num den - 52) (-1074)
    -- A mantissa that rounds up to 2 ^ 53 carries into the exponent by itself.
    let magnitude := (power + 1074).toNat * 2 ^ 52 + roundAt num den power
    ofParts negative (min magnitude (2047 * 2 ^ 52))

/-- The nearest number to an integer. -/
def ofInt (i : Int) : Binary64 := ofRatio (i < 0) i.natAbs 1

/-- The nearest number to `digits · 10 ^ exponent`. Magnitudes far outside the range are settled
without computing the power. -/
def ofDecimal (negative : Bool) (digits : Nat) (exponent : Int) : Binary64 :=
  if digits = 0 then zero negative
  else
    let top : Int := exponent + (Nat.toDigits 10 digits).length
    if 310 < top then infinity negative
    else if top < -330 then zero negative
    else ofRatio negative (digits * 10 ^ exponent.toNat) (10 ^ (-exponent).toNat)

/-- The nearest number to the product of two finite numbers. -/
def mulFinite (x y : Binary64) : Binary64 :=
  ofRatio (x.isNegative != y.isNegative) (x.ratio.1 * y.ratio.1) (x.ratio.2 * y.ratio.2)

/-- The nearest number to the quotient of two finite numbers, the second not zero. -/
def divFinite (x y : Binary64) : Binary64 :=
  ofRatio (x.isNegative != y.isNegative) (x.ratio.1 * y.ratio.2) (x.ratio.2 * y.ratio.1)

/-- The number with the opposite sign. -/
def neg (x : Binary64) : Binary64 := ⟨x.bits ^^^ 0x8000000000000000⟩

/-- The integer that the number is, if it is a whole number. -/
def toInt? (x : Binary64) : Option Int :=
  if x.isFinite && x.ratio.1 % x.ratio.2 == 0 then
    let magnitude : Int := (x.ratio.1 / x.ratio.2 : Nat)
    some (if x.isNegative then -magnitude else magnitude)
  else none

/-- The nearest number of single precision, as a number of double precision. -/
def toSingle (x : Binary64) : Binary64 :=
  if !x.isFinite || x.mantissa == 0 then x
  else
    let (num, den) := x.ratio
    let power := max (floorLog2 num den - 23) (-149)
    let rounded := roundAt num den power
    if 2 ^ 128 ≤ rounded * 2 ^ power.toNat then infinity x.isNegative
    else ofRatio x.isNegative (rounded * 2 ^ power.toNat) (2 ^ (-power).toNat)

end Binary64

end BulkTransfer
