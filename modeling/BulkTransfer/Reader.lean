import BulkTransfer.Delimited.Reader
import BulkTransfer.JsonLines.Reader
import BulkTransfer.Partition.Reader

/-!
One kind of reader for all formats. `Reader.listed` hands out a list of records and is the measure
for all others: a reader is a cursor in the list of its records.
-/

namespace BulkTransfer

/-- A source of records. -/
inductive Reader where
  | delimited (r : Delimited.Reader)
  | json (r : JsonLines.Reader)
  | columnar (r : Columnar.Reader)
  | partitioned (r : Partition.Reader)
  /-- Records that are already there. -/
  | listed (columns : List Column) (records : List Record)

namespace Reader

/-- Opens a source in a format. A columnar source that is a directory is a partitioned dataset. -/
def ofSource (tree : FileTree) (format : FileFormat) (source : Source) (options : Options)
    (known : KnownColumns) : Except Failure Reader :=
  match format, source with
  | .columnar, .stream _ => .error (.invalidInput .columnarInputStream)
  | .columnar, .path path =>
    if tree.isDirectory path then (Partition.Reader.ofPath tree path options).map partitioned
    else (Columnar.Reader.ofPath tree path options).map columnar
  | .delimited, source => match source.access tree with
    | .error e => .error e
    | .ok stream => (Delimited.Reader.ofStream stream options known).map delimited
  | .json, source => match source.access tree with
    | .error e => .error e
    | .ok stream => (JsonLines.Reader.ofStream stream known).map json

/-- The columns of the records, with their types where the source knows them. -/
def columns : Reader → List Column
  | delimited r => r.columns
  | json r => r.columns
  | columnar r => r.columns
  | partitioned r => r.columns
  | listed columns _ => columns

/-- The size of a source of several files. -/
def dataset? : Reader → Option DatasetSize
  | partitioned r => some r.size
  | _ => none

/-- Puts a changed reader of one format in place. -/
def lift {α β : Type} (make : α → Reader) (result : α × β) : Reader × β :=
  (make result.1, result.2)

/-- Reads a batch of up to so many records. -/
def readBatch : Reader → Nat → Reader × Except Failure ReadBatch
  | delimited r, max => lift delimited (r.readBatch max)
  | json r, max => lift json (r.readBatch max)
  | columnar r, max => lift columnar (r.readBatch max)
  | partitioned r, max => lift partitioned (r.readBatch max)
  | listed columns records, max =>
    (listed columns (records.drop max), .ok ⟨records.take max, (records.drop max).isEmpty⟩)

/-- Passes over up to so many records, and counts them. -/
def skip : Reader → Nat → Reader × Except Failure Nat
  | delimited r, n => lift delimited (r.skip n)
  | json r, n => lift json (r.skip n)
  | columnar r, n => lift columnar (r.skip n)
  | partitioned r, n => lift partitioned (r.skip n)
  | listed columns records, n => (listed columns (records.drop n), .ok (min n records.length))

/-- The bytes of its source that a reader has not taken. -/
def left : Reader → Bytes
  | delimited r => r.rest
  | json r => r.rest
  | _ => []

/-- The bytes of a stream that opening it leaves, whether it succeeds or not. -/
def leftByOpening (format : FileFormat) (options : Options) (input : Bytes) : Bytes :=
  match format with
  | .delimited => Delimited.Reader.leftByOpening input options
  | .json => JsonLines.Reader.leftByOpening input
  | .columnar => input

end Reader

end BulkTransfer
