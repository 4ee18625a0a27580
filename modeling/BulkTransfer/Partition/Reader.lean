import BulkTransfer.Columnar.Reader
import BulkTransfer.Partition.Key

/-!
Reading a partitioned dataset: its files, the values that their directories tell, and the rows of
the selected files one file after the other.
-/

namespace BulkTransfer.Partition

open Text

/-- A file of a dataset. -/
structure DataFile where
  path : String
  /-- The names from the root of the dataset to the file. -/
  names : List String
  /-- Columns and values that the directories tell; no value stands for null. -/
  values : List (String × Option String)

/-- The column and the value that a directory name tells. -/
def segmentValue? (name : String) : Option (String × Option String) :=
  match cut? '=' name.toList with
  | some (c :: column, value) =>
    some (String.ofList (c :: column), unescape? (String.ofList value))
  | _ => none

/-- Whether a file has the extension of columnar files. -/
def isDataName (name : String) : Bool :=
  match Path.extensionOf? name with
  | some extension => equalsIgnoringAsciiCase extension.toList "parquet".toList
  | none => false

/-- The names below a place, if it is there. Absolute places are not below the working directory. -/
def below? (root : Place) (place : Place) : Option (List String) :=
  if place.take root.length ≠ root then none
  else match place.drop root.length with
    | [] | "/" :: _ => none
    | names => some names

/-- Whether a way comes before another or is the same, name by name. -/
def isAtMost : List String → List String → Bool
  | [], _ => true
  | _ :: _, [] => false
  | n :: more, m :: others => if n ≠ m then n < m else isAtMost more others

/-- The names from the root of a dataset to each of its files, in order. -/
def dataNames (tree : FileTree) (root : Place) : List (List String) :=
  let found := tree.entries.filterMap fun (place, node) =>
    match node, below? root place with
    | .file _, some names =>
      if isDataName (names.getLastD "") then some names else none
    | _, _ => none
  found.mergeSort isAtMost

/-- The file of a dataset that names lead to. -/
def dataFile (root : String) (names : List String) : DataFile :=
  ⟨names.foldl Path.join root, names, names.dropLast.filterMap segmentValue?⟩

/-- The files below a directory, in order of their names. -/
def discover (tree : FileTree) (root : String) : Except Failure (List DataFile) :=
  match tree.look root with
  | .error fault => .error (pathFailure "read_partition_dir" root fault)
  | .ok (.file _) => .error (pathFailure "read_partition_dir" root .notDirectory)
  | .ok .directory =>
    .ok ((dataNames tree (FileTree.placeOf root)).map (dataFile root))

/-- Whether a file has all values that a filter asks for. -/
def DataFile.matchesFilter (f : DataFile) (filter : List (String × String)) : Bool :=
  filter.all fun (column, wanted) =>
    f.values.any fun (k, v) => k == column && v.getD nullValue == wanted

/-- The value that a directory name gives to rows without the column. -/
def typedValue : Option String → Value
  | none => .null
  | some s =>
    if s.isEmpty then .null
    else match Integer.readSigned? s.toList with
      | some i => .int i
      | none => match Binary64.read? s.toList with
        | some x => .float x
        | none => .text s

/-- Whether a column is derived, and so no column of rows. -/
def isDotted (column : String) : Bool := column.toList.contains '.'

/-- The columns and values that rows of a file get where they lack the column. -/
def DataFile.extra (f : DataFile) : List (String × Value) :=
  f.values.filterMap fun (k, v) => if isDotted k then none else some (k, typedValue v)

/-- Adds the columns that a row lacks. -/
def complete (extra : List (String × Value)) (row : Row) : Row :=
  extra.foldl (fun r (k, v) => if r.contains k then r else r.insert k v) row

/-- The file that is being read. -/
structure Current where
  reader : Columnar.Reader
  extra : List (String × Value)

/-- A dataset that is being read. -/
structure Reader where
  tree : FileTree
  options : Options
  columns : List Column
  size : DatasetSize
  /-- The files still to open. -/
  pending : List DataFile
  current? : Option Current

/-- The columns of a dataset: those of its first file, and those that its directories tell. -/
def datasetColumns (columns : List Column) (values : List (String × Option String)) :
    List Column :=
  values.foldl (fun cs (k, _) =>
    if isDotted k || (Column.find? cs k).isSome then cs else cs ++ [⟨k, none⟩]) columns

namespace Reader

/-- Opens the files of a dataset that match a filter. -/
def withFilter (tree : FileTree) (root : String) (options : Options)
    (filter : List (String × String)) : Except Failure Reader :=
  match discover tree root with
  | .error e => .error e
  | .ok [] => .error (.invalidInput (.noDatasetFiles root))
  | .ok (first :: others) => match Columnar.Reader.ofPath tree first.path options with
    | .error e => .error e
    | .ok reader =>
      let selected := (first :: others).filter fun f => f.matchesFilter filter
      let directories := (selected.map fun f => f.names.dropLast).eraseDups
      .ok ⟨tree, options, datasetColumns reader.columns first.values,
        ⟨selected.length, directories.length⟩, selected, none⟩

/-- Opens the files of a dataset that match the filter of the options. -/
def ofPath (tree : FileTree) (root : String) (options : Options) : Except Failure Reader :=
  withFilter tree root options options.partitionFilter

/-- Opens a file of the dataset. -/
def openFile (tree : FileTree) (options : Options) (f : DataFile) : Except Failure Current :=
  match Columnar.Reader.ofPath tree f.path options with
  | .ok reader => .ok ⟨reader, f.extra⟩
  | .error e => .error e

/-- What is left to read: the current file and those behind it. -/
structure Rest where
  current? : Option Current
  pending : List DataFile

/-- A record with the columns that its file adds. -/
def completeRecord (extra : List (String × Value)) : Record → Record
  | .ok row => .ok (complete extra row)
  | .error e => .error e

/-- Reads up to so many records of one file. -/
def readCurrent (current : Current) (max : Nat) : Current × Except Failure ReadBatch :=
  match current.reader.readBatch max with
  | (reader, .error e) => ({ current with reader }, .error e)
  | (reader, .ok batch) =>
    ({ current with reader },
      .ok ⟨batch.records.map (completeRecord current.extra), batch.isLast⟩)

/-- Reads up to so many records from the current file and those behind it. -/
def gather (tree : FileTree) (options : Options) :
    List DataFile → Current → Nat → Rest × Except Failure (List Record)
  | [], current, max => match readCurrent current max with
    | (current, .error e) => (⟨some current, []⟩, .error e)
    | (current, .ok batch) =>
      (⟨if batch.isLast then none else some current, []⟩, .ok batch.records)
  | file :: more, current, max => match readCurrent current max with
    | (current, .error e) => (⟨some current, file :: more⟩, .error e)
    | (current, .ok batch) =>
      if !batch.isLast then (⟨some current, file :: more⟩, .ok batch.records)
      else if max ≤ batch.records.length then (⟨none, file :: more⟩, .ok batch.records)
      else match openFile tree options file with
        | .error e => (⟨none, more⟩, .error e)
        | .ok next => match gather tree options more next (max - batch.records.length) with
          | (rest, .ok others) => (rest, .ok (batch.records ++ others))
          | (rest, .error e) => (rest, .error e)

/-- Reads up to so many records. -/
def readRecords (r : Reader) (max : Nat) : Rest × Except Failure (List Record) :=
  if max = 0 then (⟨r.current?, r.pending⟩, .ok [])
  else match r.current?, r.pending with
    | some current, pending => gather r.tree r.options pending current max
    | none, [] => (⟨none, []⟩, .ok [])
    | none, file :: more => match openFile r.tree r.options file with
      | .error e => (⟨none, more⟩, .error e)
      | .ok current => gather r.tree r.options more current max

/-- Reads a batch of up to so many records. -/
def readBatch (r : Reader) (max : Nat) : Reader × Except Failure ReadBatch :=
  let (rest, outcome) := r.readRecords max
  let r := { r with current? := rest.current?, pending := rest.pending }
  match outcome with
  | .ok records => (r, .ok ⟨records, r.current?.isNone && r.pending.isEmpty⟩)
  | .error e => (r, .error e)

/-- Passes over records of the current file and those behind it. -/
def pass (tree : FileTree) (options : Options) :
    List DataFile → Current → Nat → Rest × Except Failure Nat
  | [], current, n => match current.reader.skip n with
    | (reader, .error e) => (⟨some { current with reader }, []⟩, .error e)
    | (reader, .ok done) =>
      (⟨if n ≤ done then some { current with reader } else none, []⟩, .ok done)
  | file :: more, current, n => match current.reader.skip n with
    | (reader, .error e) => (⟨some { current with reader }, file :: more⟩, .error e)
    | (reader, .ok done) =>
      if n ≤ done then (⟨some { current with reader }, file :: more⟩, .ok done)
      else match openFile tree options file with
        | .error e => (⟨none, more⟩, .error e)
        | .ok next => match pass tree options more next (n - done) with
          | (rest, .ok others) => (rest, .ok (done + others))
          | (rest, .error e) => (rest, .error e)

/-- Passes over up to so many records. -/
def skipRecords (r : Reader) (n : Nat) : Rest × Except Failure Nat :=
  if n = 0 then (⟨r.current?, r.pending⟩, .ok 0)
  else match r.current?, r.pending with
    | some current, pending => pass r.tree r.options pending current n
    | none, [] => (⟨none, []⟩, .ok 0)
    | none, file :: more => match openFile r.tree r.options file with
      | .error e => (⟨none, more⟩, .error e)
      | .ok current => pass r.tree r.options more current n

/-- Passes over up to so many records, and counts them. -/
def skip (r : Reader) (n : Nat) : Reader × Except Failure Nat :=
  let (rest, outcome) := r.skipRecords n
  ({ r with current? := rest.current?, pending := rest.pending }, outcome)

end Reader

end BulkTransfer.Partition
