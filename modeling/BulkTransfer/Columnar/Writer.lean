import BulkTransfer.Columnar.Platform
import BulkTransfer.Columnar.Store
import BulkTransfer.Failure
import BulkTransfer.Options.Basic

/-!
Writing a columnar file. Rows are kept until a chunk is full or a flush is asked for, and then make
one row group, or several where they are more than the file library allows in one. Columns without
a type take theirs from the first chunk.
-/

namespace BulkTransfer.Columnar

mutual

/-- The estimated size of a value in bytes. -/
def estimate : Value → Nat
  | .null => 1
  | .bool _ => 1
  | .int _ | .float _ | .instant _ => 8
  | .text s | .decimal s => s.utf8ByteSize
  | .bytes b => b.length
  | .list items | .set items | .tuple items => estimateItems items + 4
  | .map entries => estimateEntries entries + 4
  | .fields items => estimateFields items

/-- The estimated size of items. -/
def estimateItems : List Value → Nat
  | [] => 0
  | v :: more => estimate v + estimateItems more

/-- The estimated size of entries. -/
def estimateEntries : List (Value × Value) → Nat
  | [] => 0
  | (k, v) :: more => estimate k + estimate v + estimateEntries more

/-- The estimated size of named fields. -/
def estimateFields : List (String × Value) → Nat
  | [] => 0
  | (n, v) :: more => n.utf8ByteSize + estimate v + estimateFields more

end

/-- The estimated size of a row. -/
def estimateRow (r : Row) : Nat := estimateItems (r.fields.map Prod.snd)

/-- A columnar file that is being written. -/
structure Writer where
  columns : List Column
  chunk : Nat
  codec : Compression
  /-- Where the bytes of the file go. -/
  outlet : Outlet
  /-- The columns with their types, known from the first flush on. -/
  typed? : Option (List TypedColumn)
  /-- The row groups written, last one first. -/
  groups : List RowGroup
  /-- What became of the parts that the outlet refused, last one first. -/
  refusals : List Refusal
  /-- The rows not yet written. -/
  pending : Array Row
  /-- The estimated size of the rows not yet written. -/
  pendingSize : Nat
  /-- All rows accepted. -/
  rows : Nat

namespace Writer

/-- A writer into an outlet, that has no rows; a file needs a column. -/
def into (outlet : Outlet) (columns : List Column) (options : Options) : Except Failure Writer :=
  if columns.isEmpty then .error (.invalidInput .noColumnarColumns)
  else .ok ⟨columns, options.chunkSize, options.compression, outlet, none, [], [], #[], 0, 0⟩

/-- A writer that has no rows, and for whose file there is always room. -/
def new (columns : List Column) (options : Options) : Except Failure Writer :=
  into .endless columns options

/-- The typed columns, taken from the pending rows where they are not known. -/
def types (w : Writer) : List TypedColumn :=
  w.typed?.getD (resolveTypes w.columns w.pending.toList)

/-- What becomes of the next part that the outlet refuses. -/
def refusal (w : Writer) : Refusal := w.outlet.refusal w.refusals.length

/-- Keeps a row until the next group is written. -/
def keep (w : Writer) (row : Row) : Writer :=
  { w with
    pending := w.pending.push row, pendingSize := w.pendingSize + estimateRow row,
    rows := w.rows + 1 }

/-- The writer when the types of its columns are settled. -/
def settle (w : Writer) : Writer := { w with typed? := some w.types }

section Platform

variable [Platform]

/-- The bytes that were written of the file, none before the first flush. -/
def writtenSize (w : Writer) : Nat :=
  match w.typed? with
  | none => 0
  | some typed =>
    Platform.bytes (typed.map TypedColumn.field) w.codec w.groups.reverse +
      (w.refusals.map Refusal.stray).sum

/-- The bytes that were written of the file and the estimated size of the other rows. -/
def size (w : Writer) : Nat := w.writtenSize + w.pendingSize

/-- Writes the pending rows. Those that cannot be stored stay pending, and so do those that are
refused. -/
def flush (w : Writer) : Writer × Except Failure Unit :=
  if w.pending.isEmpty then (w.settle, .ok ())
  else match storeRows w.types w.pending.toList with
    | .error cause => (w.settle, .error (.operation "write_parquet" cause))
    | .ok group => match w.outlet.take? with
      | none =>
        ({ w.settle with refusals := w.refusal :: w.refusals },
          .error (.operation "write_parquet" w.refusal.cause))
      | some outlet =>
        ({ w.settle with
            outlet := outlet, groups := (group.cut Platform.groupLimit).reverse ++ w.groups,
            pending := #[], pendingSize := 0 }, .ok ())

/-- Takes a row, and writes the pending rows where the chunk is full. -/
def write (w : Writer) (row : Row) : Writer × Except Failure Unit :=
  let w := w.keep row
  if w.chunk ≤ w.pending.size then w.flush else (w, .ok ())

/-- The file, with the pending rows written. -/
def finish (w : Writer) : Except Failure File :=
  match w.flush with
  | (_, .error e) => .error e
  | (w, .ok ()) => match w.outlet.take? with
    | none => .error (.operation "write_parquet" w.refusal.cause)
    | some _ => .ok ⟨w.types.map TypedColumn.field, w.codec, w.groups.reverse⟩

end Platform

end Writer

end BulkTransfer.Columnar
