/-!
What a writer has produced.
-/

namespace BulkTransfer

/-- Rows and files of one partition. -/
structure PartitionReport where
  /-- The partition as `column=value/...`. -/
  key : String
  rows : Nat
  files : Nat
  deriving DecidableEq, Repr

/-- What a writer has produced. -/
structure WriteReport where
  rows : Nat
  files : Nat
  /-- Counts for each partition, in order of the keys; empty without partitions. -/
  partitions : List PartitionReport
  /-- Files closed early so as not to have too many open. -/
  evicted : Nat
  deriving DecidableEq, Repr

/-- The report of one file. -/
def WriteReport.single (rows : Nat) : WriteReport := ⟨rows, 1, [], 0⟩

end BulkTransfer
