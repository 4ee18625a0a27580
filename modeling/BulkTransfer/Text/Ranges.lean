/-!
Sets of characters given as sorted lists of closed ranges of code points. Main statement: a code
point is in the set exactly when one of the ranges holds it.
-/

namespace BulkTransfer.Text

/-- A set of code points as closed ranges, both ends included. -/
abbrev Ranges := List (Nat × Nat)

namespace Ranges

/-- Whether one of the ranges holds the code point. -/
def has (ranges : Ranges) (code : Nat) : Bool :=
  ranges.any fun r => r.1 ≤ code && code ≤ r.2

theorem has_iff (ranges : Ranges) (code : Nat) :
    ranges.has code = true ↔ ∃ r ∈ ranges, r.1 ≤ code ∧ code ≤ r.2 := by
  simp [has]

end Ranges

end BulkTransfer.Text
