import BulkTransfer.Number.Integer

/-!
Ceilings on errors: a count or none at all.
-/

namespace BulkTransfer

/-- A ceiling on a count of errors. -/
inductive Threshold where
  | unlimited
  /-- Counts above this one go past the ceiling. -/
  | atMost (limit : Nat)
  deriving DecidableEq, Repr, Inhabited

namespace Threshold

/-- The ceiling that a number stands for; a negative one means none. -/
def ofInt (i : Int) : Threshold := if i < 0 then unlimited else atMost i.toNat

/-- Whether a count goes past the ceiling. -/
def isExceededBy (t : Threshold) (count : Nat) : Bool :=
  match t with
  | unlimited => false
  | atMost limit => limit < count

/-- The ceiling as text. -/
def text : Threshold → String
  | unlimited => "unlimited"
  | atMost limit => Integer.natText limit

end Threshold

end BulkTransfer
