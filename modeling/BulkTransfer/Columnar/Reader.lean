import BulkTransfer.Columnar.Restore
import BulkTransfer.Options.Basic
import BulkTransfer.Record
import BulkTransfer.Source

/-!
Reading rows from a columnar file, a chunk at a time and across row groups.
-/

namespace BulkTransfer.Columnar

/-- Cuts a list into pieces of a length, of which the last may be shorter. -/
def chunksOf {α : Type} (size : Nat) (l : List α) : List (List α) :=
  match size, l with
  | 0, _ => []
  | _, [] => []
  | n + 1, a :: rest => (a :: rest.take n) :: chunksOf (n + 1) (rest.drop n)
termination_by l.length
decreasing_by simp only [List.length_drop, List.length_cons]; omega

/-- A reader of a columnar file. -/
structure Reader where
  fields : List Field
  /-- The chunks of cells still to decode. -/
  chunks : List (List (List Cell))
  /-- Rows that are decoded and not handed out. -/
  buffered : List Row
  exhausted : Bool

namespace Reader

/-- A reader of a finished file. -/
def ofFile (f : File) (options : Options) : Reader :=
  ⟨f.fields, chunksOf options.chunkSize f.rows, [], false⟩

/-- The columns of the file. -/
def columns (r : Reader) : List Column := r.fields.map Field.column

/-- The wording for a file that is not a finished columnar file. -/
def notColumnar (path : String) : Failure :=
  .operation "read_parquet" (path ++ ": <not a parquet file>")

/-- Opens a file of a tree. -/
def ofPath (tree : FileTree) (path : String) (options : Options) : Except Failure Reader :=
  match tree.look path with
  | .error fault => .error (pathFailure "open_import_file" path fault)
  | .ok (.file (.columnar f)) => .ok (ofFile f options)
  | .ok _ => .error (notColumnar path)

/-- Decodes chunks until so many rows are buffered or none is left. -/
def fillFrom (fields : List Field) (wanted : Nat) (buffered : List Row) :
    List (List (List Cell)) → Reader × Except Failure Unit
  | [] =>
    if buffered.length < wanted then (⟨fields, [], buffered, true⟩, .ok ())
    else (⟨fields, [], buffered, false⟩, .ok ())
  | chunk :: more =>
    if buffered.length < wanted then
      match restoreRows fields chunk with
      | .error cause => (⟨fields, more, buffered, false⟩, .error (.operation "read_parquet" cause))
      | .ok rows => fillFrom fields wanted (buffered ++ rows) more
    else (⟨fields, chunk :: more, buffered, false⟩, .ok ())

/-- Decodes chunks until so many rows are buffered or none is left. -/
def fill (r : Reader) (wanted : Nat) : Reader × Except Failure Unit :=
  if r.exhausted then (r, .ok ()) else fillFrom r.fields wanted r.buffered r.chunks

/-- Reads a batch of up to so many rows. -/
def readBatch (r : Reader) (max : Nat) : Reader × Except Failure ReadBatch :=
  match r.fill max with
  | (r, .error e) => (r, .error e)
  | (r, .ok ()) =>
    let left := r.buffered.drop max
    ({ r with buffered := left },
      .ok ⟨(r.buffered.take max).map .ok, r.exhausted && left.isEmpty⟩)

/-- The most rows that are buffered to be passed over. -/
def skipWindow : Nat := 65536

/-- Passes over up to so many rows, and counts them. -/
def skip (r : Reader) (n : Nat) : Reader × Except Failure Nat :=
  if n = 0 then (r, .ok 0)
  else match r.fill (min n skipWindow) with
    | (r, .error e) => (r, .error e)
    | (r, .ok ()) => match r.buffered with
      | [] => (r, .ok 0)
      | row :: rows =>
        let left := { r with buffered := (row :: rows).drop n }
        match left.skip (n - (rows.length + 1)) with
        | (r, .ok m) => (r, .ok (min n (rows.length + 1) + m))
        | (r, .error e) => (r, .error e)
termination_by n
decreasing_by omega

end Reader

end BulkTransfer.Columnar
