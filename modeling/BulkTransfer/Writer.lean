import BulkTransfer.Delimited.Writer
import BulkTransfer.JsonLines.Writer
import BulkTransfer.Partition.Writer

/-!
One kind of writer for all formats. A writer holds the tree of files while it writes, and gives it
back when it is closed.
-/

namespace BulkTransfer

/-- What a closed writer leaves: the tree of files, and the bytes of a stream. -/
structure Written where
  tree : FileTree
  stream : Bytes

/-- A sink of rows. -/
inductive Writer where
  | delimited (tree : FileTree) (sink : Sink) (w : Delimited.Writer)
  | json (tree : FileTree) (sink : Sink) (w : JsonLines.Writer)
  | columnar (tree : FileTree) (path : String) (w : Columnar.Writer)
  | partitioned (w : Partition.Writer)

namespace Writer

/-- Makes the file of a sink. -/
def prepare (tree : FileTree) : Sink → Except Failure FileTree
  | .stream => .ok tree
  | .path path => createExportFile tree path

/-- Makes a writer of one columnar file. -/
def createColumnar (tree : FileTree) (path : String) (columns : List Column)
    (options : Options) : FileTree × Except Failure Writer :=
  match createExportFile tree path with
  | .error e => (tree, .error e)
  | .ok tree => match Columnar.Writer.new columns options with
    | .error e => (tree, .error e)
    | .ok w => (tree, .ok (columnar tree path w))

/-- Makes a writer in a format. With partition columns a columnar sink is the root of a partitioned
dataset. What was made before a failure stays in the tree. -/
def create (tree : FileTree) (format : FileFormat) (sink : Sink) (columns : List Column)
    (options : Options) : FileTree × Except Failure Writer :=
  match format, sink with
  | .columnar, .stream => (tree, .error (.invalidInput .columnarOutputStream))
  | .columnar, .path path =>
    if options.partitionColumns.isEmpty then createColumnar tree path columns options
    else match Partition.Writer.create tree path columns options with
      | (tree, .ok w) => (tree, .ok (partitioned w))
      | (tree, .error e) => (tree, .error e)
  | .delimited, sink => match prepare tree sink with
    | .error e => (tree, .error e)
    | .ok tree => (tree, .ok (delimited tree sink (Delimited.Writer.new columns options)))
  | .json, sink => match prepare tree sink with
    | .error e => (tree, .error e)
    | .ok tree => (tree, .ok (json tree sink (JsonLines.Writer.new columns)))

variable [Columnar.Platform]

/-- Writes a row. -/
def write : Writer → Row → Writer × Except Failure Unit
  | delimited tree sink w, row => (delimited tree sink (w.write row), .ok ())
  | json tree sink w, row => (json tree sink (w.write row), .ok ())
  | columnar tree path w, row =>
    let (w, outcome) := w.write row
    (columnar tree path w, outcome)
  | partitioned w, row =>
    let (w, outcome) := w.write row
    (partitioned w, outcome)

/-- Writes rows up to the first that fails. -/
def writeAll (w : Writer) : List Row → Writer × Except Failure Unit
  | [] => (w, .ok ())
  | row :: more => match w.write row with
    | (w, .ok ()) => w.writeAll more
    | (w, .error e) => (w, .error e)

/-- Brings pending rows into the files, which stay open. -/
def flush : Writer → Writer × Except Failure Unit
  | delimited tree sink w => (delimited tree sink w, .ok ())
  | json tree sink w => (json tree sink w, .ok ())
  | columnar tree path w =>
    let (w, outcome) := w.flush
    (columnar tree path w, outcome)
  | partitioned w =>
    let (w, outcome) := w.flush
    (partitioned w, outcome)

/-- Brings bytes to a sink. -/
def deliver (tree : FileTree) (sink : Sink) (b : Bytes) : Written :=
  match sink with
  | .stream => ⟨tree, b⟩
  | .path path => ⟨tree.fill path (.bytes b), []⟩

/-- Finishes all files. -/
def close : Writer → Written × Except Failure WriteReport
  | delimited tree sink w => (deliver tree sink w.output, .ok (.single w.rows))
  | json tree sink w => (deliver tree sink w.output, .ok (.single w.rows))
  | columnar tree path w => match w.finish with
    | .error e => (⟨tree, []⟩, .error e)
    | .ok file => (⟨tree.fill path (.columnar file), []⟩, .ok (.single w.rows))
  | partitioned w =>
    let (tree, outcome) := w.close
    (⟨tree, []⟩, outcome)

end Writer

end BulkTransfer
