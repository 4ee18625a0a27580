import BulkTransfer.Columnar.File

/-!
What the writing of columnar files rests on. A file library lays groups of rows out as bytes and
allows so many rows in a group, and the bytes of each file go to a place that may refuse them. A
platform gives these; what is shown of writers is shown over every platform.
-/

namespace BulkTransfer.Columnar

/-- What happens to a part of a file that is refused. -/
structure Refusal where
  cause : String
  /-- The bytes of it that came through all the same. -/
  stray : Nat

/-- Where the bytes of one file go. Once something was refused, so is all that comes after it. -/
structure Outlet where
  /-- How often it takes what it is handed; none means every time. -/
  room? : Option Nat
  /-- What happens to the parts that it refuses, by how many it has refused before. -/
  refusal : Nat → Refusal

namespace Outlet

/-- An outlet that takes everything. -/
def endless : Outlet := ⟨none, fun _ => ⟨"", 0⟩⟩

/-- The outlet when it has taken one more part of the file, if it does. -/
def take? (o : Outlet) : Option Outlet :=
  match o.room? with
  | none => some o
  | some 0 => none
  | some (n + 1) => some { o with room? := some n }

end Outlet

/-- A file library and the places of files. -/
class Platform where
  /-- The most rows of a group. -/
  groupLimit : Nat
  groupLimit_pos : 0 < groupLimit
  /-- The bytes that make up a file with these groups so far. -/
  bytes : List Field → Compression → List RowGroup → Nat
  /-- Where the bytes of the file at a path go. -/
  outlet : String → Outlet

namespace RowGroup

/-- The first so many rows. -/
def first (g : RowGroup) (n : Nat) : RowGroup := ⟨n, g.columns.map fun c => c.take n⟩

/-- The rows behind the first so many. -/
def rest (g : RowGroup) (n : Nat) : RowGroup := ⟨g.size - n, g.columns.map fun c => c.drop n⟩

/-- The groups as which a group is written where so many rows are allowed in one: all but the last
are full. -/
def cut (limit : Nat) (g : RowGroup) : List RowGroup :=
  if limit = 0 ∨ g.size ≤ limit then [g]
  else g.first limit :: (g.rest limit).cut limit
termination_by g.size
decreasing_by simp only [rest]; omega

end RowGroup

end BulkTransfer.Columnar
