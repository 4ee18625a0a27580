import BulkTransfer.Columnar.File
import BulkTransfer.Path

/-!
The files and directories below a working directory, as a value. A place is a list of names from
the working directory, or from the root behind a first name `/`. The working directory and the
root are always there.

- `node?_put_self`, `node?_put_of_ne`: writing a place is seen there and nowhere else.
-/

namespace BulkTransfer

/-- What a file holds: bytes, or a columnar file that was completed. One that was not completed is
kept without bytes: however much of it there is, it cannot be read. -/
inductive Content where
  | bytes (b : Bytes)
  | columnar (f : Columnar.File)
  deriving Repr, Inhabited

/-- What stands at a place. -/
inductive Node where
  | directory
  | file (content : Content)
  deriving Repr, Inhabited

/-- Why a step on the tree fails. -/
inductive FileFault where
  | notFound
  | fileExists
  | notDirectory
  | isDirectory
  | nameTooLong
  | nulInName
  /-- The bytes are not well-formed text. -/
  | notText
  deriving DecidableEq, Repr

/-- The wording of a fault. -/
def FileFault.message : FileFault → String
  | notFound => "No such file or directory (os error 2)"
  | fileExists => "File exists (os error 17)"
  | notDirectory => "Not a directory (os error 20)"
  | isDirectory => "Is a directory (os error 21)"
  | nameTooLong => "File name too long (os error 36)"
  | nulInName => "file name contained an unexpected NUL byte"
  | notText => "stream did not contain valid UTF-8"

/-- A place in a tree: the names on the way to it. -/
abbrev Place := List String

/-- The files and directories that were made, each with its place. -/
structure FileTree where
  entries : List (Place × Node)
  deriving Repr, Inhabited

namespace FileTree

/-- The tree without any file. -/
def empty : FileTree := ⟨[]⟩

/-- What an association list has at a place. -/
def find? (place : Place) : List (Place × Node) → Option Node
  | [] => none
  | (p, n) :: rest => if p = place then some n else find? place rest

/-- What stands at a place. -/
def node? (t : FileTree) (place : Place) : Option Node :=
  if place = [] ∨ place = ["/"] then some .directory else find? place t.entries

/-- Sets a place of an association list, in its old position or last. -/
def set (place : Place) (node : Node) : List (Place × Node) → List (Place × Node)
  | [] => [(place, node)]
  | (p, n) :: rest => if p = place then (p, node) :: rest else (p, n) :: set place node rest

/-- Puts a node at a place. -/
def put (t : FileTree) (place : Place) (node : Node) : FileTree := ⟨set place node t.entries⟩

/-- Whether a directory stands at a place. -/
def hasDirectory (t : FileTree) (place : Place) : Bool :=
  match t.node? place with
  | some .directory => true
  | _ => false

/-! ## Paths -/

/-- The place after one component of a path. -/
def follow (place : Place) : Path.Component → Place
  | .root => ["/"]
  | .here => place
  | .up => place.dropLast
  | .name s => place ++ [s]

/-- The place that a path leads to. -/
def placeOf (path : String) : Place := (Path.components path).foldl follow []

/-- The greatest number of bytes of one name. -/
def maxName : Nat := 255

/-- The number of bytes from which on a path is too long. -/
def maxPath : Nat := 4096

/-- The fault of a path before any directory is looked at. -/
def pathFault? (path : String) : Option FileFault :=
  if path.isEmpty then some .notFound
  else if path.toList.contains '\x00' then some .nulInName
  else if maxPath ≤ path.utf8ByteSize then some .nameTooLong
  else none

/-- The fault met on the way through directories. -/
def wayFault? (t : FileTree) (passed : Place) : List Path.Component → Option FileFault
  | [] => none
  | c :: rest =>
    let place := follow passed c
    match c with
    | .name s =>
      if maxName < s.utf8ByteSize then some .nameTooLong
      else match t.node? place with
        | none => some .notFound
        | some (.file _) => some .notDirectory
        | some .directory => t.wayFault? place rest
    | _ => t.wayFault? place rest

/-- Whether a path says that it names a directory. -/
def namesDirectory (path : String) : Bool :=
  Path.endsInSlash path || (Text.dropEnd? ['/', '.'] path.toList).isSome

/-- What stands at the end of a path. -/
def look (t : FileTree) (path : String) : Except FileFault Node :=
  match pathFault? path with
  | some fault => .error fault
  | none =>
    let components := Path.components path
    match t.wayFault? [] components.dropLast with
    | some fault => .error fault
    | none =>
      let tooLong := match components.getLast? with
        | some (.name s) => decide (maxName < s.utf8ByteSize)
        | _ => false
      if tooLong then .error .nameTooLong
      else match t.node? (placeOf path) with
        | none => .error .notFound
        | some (.file content) =>
          if namesDirectory path then .error .notDirectory else .ok (.file content)
        | some .directory => .ok .directory

/-- Whether a path leads to a directory. -/
def isDirectory (t : FileTree) (path : String) : Bool :=
  match t.look path with
  | .ok .directory => true
  | _ => false

/-! ## Changes -/

/-- Makes the missing directories on a way, as far as it goes. -/
def makeWay (t : FileTree) (passed : Place) : List Path.Component → FileTree × Option FileFault
  | [] => (t, none)
  | c :: rest =>
    let place := follow passed c
    match c with
    | .name s =>
      if maxName < s.utf8ByteSize then (t, some .nameTooLong)
      else match t.node? place with
        | some .directory => t.makeWay place rest
        | some (.file _) => (t, some (if rest.isEmpty then .fileExists else .notDirectory))
        | none => (t.put place .directory).makeWay place rest
    | _ => t.makeWay place rest

/-- Makes a directory and those above it that are missing. Directories made before a fault is met
stay. -/
def makeDirectories (t : FileTree) (path : String) : FileTree × Option FileFault :=
  if path.isEmpty then (t, none)
  else match pathFault? path with
    | some fault => (t, some fault)
    | none => t.makeWay [] (Path.components path)

/-- Makes an empty file, or empties it where it is there. -/
def createFile (t : FileTree) (path : String) : Except FileFault FileTree :=
  match pathFault? path with
  | some fault => .error fault
  | none =>
    let components := Path.components path
    match t.wayFault? [] components.dropLast with
    | some fault => .error fault
    | none => match components.getLast? with
      | some (.name s) =>
        if maxName < s.utf8ByteSize then .error .nameTooLong
        else if namesDirectory path || t.hasDirectory (placeOf path) then .error .isDirectory
        else .ok (t.put (placeOf path) (.file (.bytes [])))
      | _ => .error .isDirectory

/-- Makes an empty file where none is. -/
def ensureFile (t : FileTree) (path : String) : Except FileFault FileTree :=
  match t.createFile path, t.look path with
  | .error fault, _ => .error fault
  | .ok _, .ok _ => .ok t
  | .ok made, .error _ => .ok made

/-- The text of a file. -/
def readText (t : FileTree) (path : String) : Except FileFault String :=
  match t.look path with
  | .error fault => .error fault
  | .ok .directory => .error .isDirectory
  | .ok (.file (.columnar _)) => .error .notText
  | .ok (.file (.bytes b)) => match Bytes.toText? b with
    | some text => .ok text
    | none => .error .notText

/-- Gives a file that was made its content. -/
def fill (t : FileTree) (path : String) (content : Content) : FileTree :=
  t.put (placeOf path) (.file content)

/-! ## Lemmas -/

@[simp]
theorem find?_set_self (place : Place) (node : Node) (l : List (Place × Node)) :
    find? place (set place node l) = some node := by
  induction l with
  | nil => simp [set, find?]
  | cons e rest ih =>
    obtain ⟨p, n⟩ := e
    simp only [set]
    split
    · next h => simp [find?, h]
    · next h => simp [find?, h, ih]

theorem find?_set_of_ne {place other : Place} (h : other ≠ place) (node : Node)
    (l : List (Place × Node)) : find? other (set place node l) = find? other l := by
  induction l with
  | nil => simp [set, find?, Ne.symm h]
  | cons e rest ih =>
    obtain ⟨p, n⟩ := e
    simp only [set]
    split
    · next hp => subst hp; simp [find?, Ne.symm h]
    · simp [find?, ih]

theorem node?_put_self {place : Place} (h : place ≠ []) (hr : place ≠ ["/"]) (t : FileTree)
    (node : Node) : (t.put place node).node? place = some node := by
  simp [node?, put, h, hr]

theorem node?_put_of_ne {place other : Place} (h : other ≠ place) (t : FileTree) (node : Node) :
    (t.put place node).node? other = t.node? other := by
  simp [node?, put, find?_set_of_ne h]

end FileTree

end BulkTransfer
