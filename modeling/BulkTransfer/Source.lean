import BulkTransfer.Failure
import BulkTransfer.FileTree

/-!
Where bytes are read from and written to: files of a tree and streams.
-/

namespace BulkTransfer

/-- Where a reader gets its bytes. -/
inductive Source where
  /-- A file, or the root of a partitioned dataset. -/
  | path (path : String)
  | stream (bytes : Bytes)

/-- The bytes behind an open source. -/
inductive Stream where
  | bytes (b : Bytes)
  /-- A directory, of which nothing can be read. -/
  | directory
  deriving Inhabited

/-- Where a writer puts its bytes. -/
inductive Sink where
  /-- A file, or the root of a partitioned dataset. -/
  | path (path : String)
  | stream
  deriving DecidableEq, Repr

/-- The fault of a path under the name of a step. -/
def pathFailure (step path : String) (fault : FileFault) : Failure :=
  .operation step (path ++ ": " ++ fault.message)

/-- The marks that stand at both ends of a columnar file. -/
def columnarMark : Bytes := [80, 65, 82, 49]

/-- Opens a source for reading bytes. -/
def Source.access (tree : FileTree) : Source → Except Failure Stream
  | .stream b => .ok (.bytes b)
  | .path file => match tree.look file with
    | .error fault => .error (pathFailure "open_import_file" file fault)
    | .ok .directory => .ok .directory
    | .ok (.file (.bytes b)) => .ok (.bytes b)
    | .ok (.file (.columnar _)) => .ok (.bytes (columnarMark ++ columnarMark))

/-- Makes or empties a file for an export. -/
def createExportFile (tree : FileTree) (path : String) : Except Failure FileTree :=
  match tree.createFile path with
  | .error fault => .error (pathFailure "create_export_file" path fault)
  | .ok tree => .ok tree

end BulkTransfer
