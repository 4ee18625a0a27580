import BulkTransfer.Columnar.Writer
import BulkTransfer.Partition.Key
import BulkTransfer.Source
import BulkTransfer.WriteReport

/-!
Writing a partitioned dataset: `root/column=value/.../part-00000.parquet`. Only so many files are
open at once; to open another one the file unused for longest is finished. A file that has grown
to the size limit is finished before the next row of its partition. The numbers of the files of a
partition go up, so that nothing is overwritten.
-/

namespace BulkTransfer.Partition

/-- A file that rows are written to. -/
structure OpenFile where
  path : String
  writer : Columnar.Writer

/-- What was written of a partition. -/
structure Tally where
  rows : Nat
  files : Nat
  nextPart : Nat

/-- The tally of a partition without rows. -/
def Tally.zero : Tally := ⟨0, 0, 0⟩

/-- A dataset that is being written. -/
structure Writer where
  tree : FileTree
  root : String
  columns : List PartitionColumn
  dataColumns : List Column
  options : Options
  /-- The open files, the one used last first. -/
  openFiles : List (Key × OpenFile)
  /-- Partitions in the order in which they were first opened. -/
  tallies : List (Key × Tally)
  rows : Nat
  evicted : Nat

/-- What a list has under a key. -/
def find? {α : Type} (key : Key) (l : List (Key × α)) : Option α :=
  (l.find? fun e => e.1 == key).map Prod.snd

/-- A list without a key. -/
def remove {α : Type} (key : Key) (l : List (Key × α)) : List (Key × α) :=
  l.filter fun e => e.1 != key

/-- Changes what a list has under a key, or adds it behind. -/
def update {α : Type} (key : Key) (default : α) (f : α → α) : List (Key × α) → List (Key × α)
  | [] => [(key, f default)]
  | (k, a) :: rest =>
    if k = key then (k, f a) :: rest else (k, a) :: update key default f rest

/-- Reads all partition columns, and stops at the first that cannot be read. -/
def parseColumns (specs : List String) : Except Failure (List PartitionColumn) :=
  specs.mapM PartitionColumn.parse

/-- The first source that is not among the columns. -/
def missingSource? (columns : List Column) (partition : List PartitionColumn) : Option String :=
  (partition.find? fun p => (Column.find? columns p.source).isNone).map PartitionColumn.source

/-- The partition columns that options ask for, judged before anything is made. -/
def columnsFor (columns : List Column) (options : Options) :
    Except Failure (List PartitionColumn) :=
  match parseColumns options.partitionColumns with
  | .error e => .error e
  | .ok [] => .error (.invalidInput .noPartitionColumns)
  | .ok partition => match missingSource? columns partition with
    | some name => .error (.invalidInput (.partitionColumnMissing name))
    | none => .ok partition

namespace Writer

/-- Makes the root of a dataset. -/
def create (tree : FileTree) (root : String) (columns : List Column) (options : Options) :
    FileTree × Except Failure Writer :=
  match columnsFor columns options with
  | .error e => (tree, .error e)
  | .ok partition => match tree.makeDirectories root with
    | (tree, some fault) => (tree, .error (pathFailure "create_partition_root" root fault))
    | (tree, none) => (tree, .ok ⟨tree, root, partition, columns, options, [], [], 0, 0⟩)

variable [Columnar.Platform]

/-- Finishes a file, which gives it its content. -/
def finishFile (w : Writer) (f : OpenFile) : Writer × Except Failure Unit :=
  match f.writer.finish with
  | .error e => (w, .error e)
  | .ok file => ({ w with tree := w.tree.fill f.path (.columnar file) }, .ok ())

/-- Whether the file of a key has grown to the size limit. -/
def isFull (w : Writer) (key : Key) : Bool :=
  match find? key w.openFiles with
  | some f => decide (0 < f.writer.rows) && decide (w.options.maxFileSize ≤ f.writer.size)
  | none => false

/-- Finishes the file of a key if it is full. -/
def rotate (w : Writer) (key : Key) : Writer × Except Failure Unit :=
  match find? key w.openFiles with
  | some f =>
    if w.isFull key then { w with openFiles := remove key w.openFiles }.finishFile f
    else (w, .ok ())
  | none => (w, .ok ())

/-- Finishes the file unused for longest if no other can be opened. -/
def evict (w : Writer) : Writer × Except Failure Unit :=
  if w.openFiles.length < w.options.maxOpenFiles then (w, .ok ())
  else match w.openFiles.getLast? with
    | some (_, f) =>
      { w with openFiles := w.openFiles.dropLast, evicted := w.evicted + 1 }.finishFile f
    | none => (w, .ok ())

/-- The file name of a part. -/
def partName (n : Nat) : String :=
  "part-" ++ String.ofList (Integer.padded 5 n) ++ ".parquet"

/-- Makes the next file of a partition. -/
def openPart (w : Writer) (key : Key) : Writer × Except Failure OpenFile :=
  let directory := Path.join w.root key.directory
  match w.tree.makeDirectories directory with
  | (tree, some fault) =>
    ({ w with tree := tree }, .error (pathFailure "create_partition_dir" directory fault))
  | (tree, none) =>
    let part := ((find? key w.tallies).getD .zero).nextPart
    let path := Path.join directory (partName part)
    let w := { w with
      tree := tree
      tallies := update key Tally.zero
        (fun t => { t with files := t.files + 1, nextPart := t.nextPart + 1 }) w.tallies }
    match createExportFile w.tree path with
    | .error e => (w, .error e)
    | .ok tree =>
      match Columnar.Writer.into (Columnar.Platform.outlet path) w.dataColumns w.options with
      | .error e => ({ w with tree := tree }, .error e)
      | .ok writer => ({ w with tree := tree }, .ok ⟨path, writer⟩)

/-- Makes sure that the partition of a key has an open file. -/
def ensureOpen (w : Writer) (key : Key) : Writer × Except Failure Unit :=
  match find? key w.openFiles with
  | some _ => (w, .ok ())
  | none => match w.evict with
    | (w, .error e) => (w, .error e)
    | (w, .ok ()) => match w.openPart key with
      | (w, .error e) => (w, .error e)
      | (w, .ok f) => ({ w with openFiles := (key, f) :: w.openFiles }, .ok ())

/-- Writes a row to the open file of its partition, which is then the one used last. -/
def append (w : Writer) (key : Key) (row : Row) : Writer × Except Failure Unit :=
  match find? key w.openFiles with
  | none =>
    (w, .error (.operation "write_partition" ("no open file for partition " ++ key.text)))
  | some f =>
    let (writer, outcome) := f.writer.write row
    let w := { w with openFiles := (key, { f with writer }) :: remove key w.openFiles }
    match outcome with
    | .error e => (w, .error e)
    | .ok () =>
      ({ w with
          tallies := update key Tally.zero (fun t => { t with rows := t.rows + 1 }) w.tallies
          rows := w.rows + 1 }, .ok ())

/-- Writes a row to the file of its partition. -/
def write (w : Writer) (row : Row) : Writer × Except Failure Unit :=
  let key := Key.ofRow w.columns row
  match w.rotate key with
  | (w, .error e) => (w, .error e)
  | (w, .ok ()) => match w.ensureOpen key with
    | (w, .error e) => (w, .error e)
    | (w, .ok ()) => w.append key row

/-- Writes the pending rows of files, and stops at the first that fails. -/
def flushFiles : List (Key × OpenFile) → List (Key × OpenFile) × Except Failure Unit
  | [] => ([], .ok ())
  | (key, f) :: more => match f.writer.flush with
    | (writer, .error e) => ((key, { f with writer }) :: more, .error e)
    | (writer, .ok ()) =>
      let (rest, outcome) := flushFiles more
      ((key, { f with writer }) :: rest, outcome)

/-- Writes the pending rows of all open files, the one used last first. -/
def flush (w : Writer) : Writer × Except Failure Unit :=
  let (files, outcome) := flushFiles w.openFiles
  ({ w with openFiles := files }, outcome)

/-- Finishes files one after the other, and keeps the first failure. -/
def finishAll (w : Writer) (first? : Option Failure) :
    List (Key × OpenFile) → Writer × Option Failure
  | [] => (w, first?)
  | (_, f) :: more => match w.finishFile f with
    | (w, .ok ()) => w.finishAll first? more
    | (w, .error e) => w.finishAll (some (first?.getD e)) more

/-- The counts of all partitions in order of their keys. -/
def partitionReports (w : Writer) : List PartitionReport :=
  (w.tallies.mergeSort fun a b => a.1.isAtMost b.1).map fun (k, t) => ⟨k.text, t.rows, t.files⟩

/-- Finishes all files, the one unused for longest first. -/
def close (w : Writer) : FileTree × Except Failure WriteReport :=
  match { w with openFiles := [] }.finishAll none w.openFiles.reverse with
  | (w, some e) => (w.tree, .error e)
  | (w, none) =>
    let partitions := w.partitionReports
    (w.tree, .ok ⟨w.rows, (partitions.map PartitionReport.files).sum, partitions, w.evicted⟩)

end Writer

end BulkTransfer.Partition
