import BulkTransfer.Number.Binary64
import BulkTransfer.Number.Integer

/-!
The fewest decimal digits that read back as a given floating-point number.

The reals that round to a number form an interval around it, whose ends belong to it exactly when
the mantissa is even. The search walks from coarse to fine decimal grids and takes the first grid
with a point inside the interval; of two such points it takes the nearer.
-/

namespace BulkTransfer.Shortest

/-- A positive decimal `digits · 10 ^ exponent`. -/
structure Scientific where
  digits : Nat
  exponent : Int
  deriving DecidableEq, Repr

/-- Which of two equally near grid points is taken. -/
inductive Tie where
  /-- The greater. -/
  | up
  /-- The even. -/
  | toEven
  deriving DecidableEq, Repr

/-- Compares `a · 10 ^ g` with `b · 2 ^ q`, both brought to whole numbers. -/
def compareScaled (a : Nat) (g : Int) (b : Nat) (q : Int) : Ordering :=
  compare (a * 10 ^ g.toNat * 2 ^ (-q).toNat) (b * 2 ^ q.toNat * 10 ^ (-g).toNat)

/-- The interval of reals that round to a number, in quarters of its last place. -/
structure Interval where
  low : Nat
  value : Nat
  high : Nat
  power : Int
  closed : Bool

/-- The interval of a finite number that is not zero. Below a power of two the spacing halves. -/
def Interval.of (x : Binary64) : Interval :=
  let m := x.mantissa
  { low := 4 * m - (if x.fraction == 0 && 1 < x.exponentField then 1 else 2)
    value := 4 * m
    high := 4 * m + 2
    power := x.exponent - 2
    closed := m % 2 == 0 }

/-- Whether the interval holds `c · 10 ^ g`. -/
def Interval.holds (i : Interval) (c : Nat) (g : Int) : Bool :=
  match compareScaled c g i.low i.power, compareScaled c g i.high i.power with
  | .gt, .lt => true
  | .eq, _ => i.closed
  | _, .eq => i.closed
  | _, _ => false

/-- The greatest `c` with `c · 10 ^ g` at most the value. -/
def Interval.floorAt (i : Interval) (g : Int) : Nat :=
  (i.value * 2 ^ i.power.toNat * 10 ^ (-g).toNat) / (10 ^ g.toNat * 2 ^ (-i.power).toNat)

/-- The point of the grid `10 ^ g` to take, if the interval holds one. -/
def Interval.pointAt? (i : Interval) (tie : Tie) (g : Int) : Option Nat :=
  let below := i.floorAt g
  match i.holds below g, i.holds (below + 1) g with
  | true, false => some below
  | false, true => some (below + 1)
  | false, false => none
  | true, true =>
    match compareScaled (2 * below + 1) g (2 * i.value) i.power with
    | .gt => some below
    | .lt => some (below + 1)
    | .eq => match tie with
      | .up => some (below + 1)
      | .toEven => some (below + below % 2)

/-- Walks to finer grids until one has a point. -/
def Interval.search (i : Interval) (tie : Tie) : Nat → Int → Scientific
  | 0, g => ⟨i.floorAt g, g⟩
  | steps + 1, g => match i.pointAt? tie g with
    | some c => ⟨c, g⟩
    | none => i.search tie steps (g - 1)

/-- The shortest decimal of a finite number that is not zero. The first grid is coarser than the
number, and seventeen digits always suffice. -/
def ofFinite (tie : Tie) (x : Binary64) : Scientific :=
  let top := Int.fdiv ((x.exponent + Nat.log2 x.mantissa) * 30103) 100000 + 2
  (Interval.of x).search tie 22 top

end BulkTransfer.Shortest
