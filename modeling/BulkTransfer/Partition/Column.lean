import BulkTransfer.Failure
import BulkTransfer.Instant.Reader
import BulkTransfer.Row
import BulkTransfer.Text.Case
import BulkTransfer.Text.Split
import BulkTransfer.Uuid

/-!
Partition columns: real columns, and parts of an instant that a column carries.
-/

namespace BulkTransfer.Partition

open Text

/-- A part of an instant. -/
inductive TimePart where
  | year
  | month
  | day
  | hour
  | date
  deriving DecidableEq, Repr

/-- The part that a word names. -/
def TimePart.ofName? (word : String) : Option TimePart :=
  if word = "year" then some year
  else if word = "month" then some month
  else if word = "day" then some day
  else if word = "hour" then some hour
  else if word = "date" then some date
  else none

/-- A column by which rows are told apart. -/
structure PartitionColumn where
  /-- The column as it is written, which also names its directories. -/
  name : String
  /-- The column that the value comes from. -/
  source : String
  /-- The part of the instant, if the value is derived. -/
  part? : Option TimePart
  deriving DecidableEq, Repr

/-- The instant that a value carries: an instant itself, a time-based identifier, or the text of an
instant. -/
def timeOf? : Value → Option Instant
  | .instant t => some t
  | .text s => match Uuid.parse? s.toList with
    | some u => match u.time? with
      | some (seconds, nanos) =>
        if (seconds : Int) ≤ Integer.max64 then Instant.ofSeconds? seconds nanos else none
      | none => none
    | none => Instant.read? s.toList
  | _ => none

/-- The value of a part of an instant. -/
def TimePart.value (t : Instant) : TimePart → Value
  | year => .int t.date.year
  | month => .int t.date.month
  | day => .int t.date.day
  | hour => .int (t.secondOfDay / 3600 : Nat)
  | date => .text (String.ofList t.dateText)

namespace PartitionColumn

/-- Reads `column` or `column.part`. -/
def parse (spec : String) : Except Failure PartitionColumn :=
  let trimmedSpec := trim spec.toList
  let name := String.ofList trimmedSpec
  match cut? '.' trimmedSpec with
  | none => .ok ⟨name, name, none⟩
  | some (source, part) =>
    let word := String.ofList (lower part)
    match TimePart.ofName? word with
    | some p => .ok ⟨name, String.ofList source, some p⟩
    | none => .error (.invalidInput (.unknownTimePart word name))

/-- Whether the value is derived and not stored. -/
def isVirtual (c : PartitionColumn) : Bool := c.part?.isSome

/-- The partition value of a row. -/
def value (c : PartitionColumn) (row : Row) : Value :=
  match c.part? with
  | none => row.getD c.source
  | some part => match timeOf? (row.getD c.source) with
    | some t => part.value t
    | none => .null

end PartitionColumn

end BulkTransfer.Partition
