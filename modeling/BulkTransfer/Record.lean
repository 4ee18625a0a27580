import BulkTransfer.Column
import BulkTransfer.Row

/-!
What readers hand out: rows, and records that are no row, in the order of the source.
-/

namespace BulkTransfer

/-- A source record that could not be taken as a row. -/
structure ParseFailure where
  /-- The number of the record in the source, counted from one and with those passed over. -/
  record : Nat
  message : String
  deriving DecidableEq, Repr

/-- One record of a source. -/
abbrev Record := Except ParseFailure Row

/-- The records of one reading. -/
structure ReadBatch where
  records : List Record
  /-- Whether the source has no more. -/
  isLast : Bool

/-- The size of a source of several files. -/
structure DatasetSize where
  files : Nat
  /-- Different directories of these files. -/
  partitions : Nat
  deriving DecidableEq, Repr

/-- The columns that are known when a source is opened. -/
structure KnownColumns where
  /-- The names that the command lists. -/
  explicit : List String
  /-- The columns of the table, from which names and types are taken. -/
  table : List Column

end BulkTransfer
