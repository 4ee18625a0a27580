import BulkTransfer.Text.Split

/-!
File paths as texts: their components, the last name, its extension, and joining.
-/

namespace BulkTransfer.Path

open Text

/-- A component of a path. -/
inductive Component where
  /-- The root directory, in front of an absolute path. -/
  | root
  /-- The directory itself, kept only in front of a relative path. -/
  | here
  /-- The directory above. -/
  | up
  | name (s : String)
  deriving DecidableEq, Repr

/-- Whether the path starts at the root. -/
def isAbsolute (path : String) : Bool :=
  match path.toList with
  | '/' :: _ => true
  | _ => false

/-- The component that a piece between slashes is, of which empty ones and single dots are none. -/
def component? (piece : List Char) : Option Component :=
  if piece.isEmpty || piece == ['.'] then none
  else if piece == ['.', '.'] then some .up
  else some (.name (String.ofList piece))

/-- The components of a path. -/
def components (path : String) : List Component :=
  let pieces := splitAll '/' path.toList
  let named := pieces.filterMap component?
  if isAbsolute path then .root :: named
  else match pieces with
    | ['.'] :: _ => .here :: named
    | _ => named

/-- The last component, if it is a name. -/
def fileName? (path : String) : Option String :=
  match (components path).getLast? with
  | some (.name s) => some s
  | _ => none

/-- A component as text. -/
def Component.text : Component → String
  | .root => ""
  | .here => "."
  | .up => ".."
  | .name s => s

/-- The path of components. -/
def ofComponents : List Component → String
  | [.root] => "/"
  | cs => Text.joined "/" (cs.map Component.text)

/-- The path without its last component. -/
def parent? (path : String) : Option String :=
  match (components path).getLast? with
  | none | some .root => none
  | some _ => some (ofComponents (components path).dropLast)

/-- The part of a name behind its last dot, unless nothing stands before the dot. -/
def extensionOf? (name : String) : Option String :=
  match cut? '.' name.toList.reverse with
  | some (after, _ :: _) => some (String.ofList after.reverse)
  | _ => none

/-- The extension of the last name. -/
def extension? (path : String) : Option String := (fileName? path).bind extensionOf?

/-- Whether a text ends in a slash. -/
def endsInSlash (path : String) : Bool :=
  match path.toList.getLast? with
  | some c => c == '/'
  | none => false

/-- A path below another; an absolute one stands alone. -/
def join (base tail : String) : String :=
  if isAbsolute tail then tail
  else if base.isEmpty || endsInSlash base then base ++ tail
  else base ++ "/" ++ tail

/-- Adds an extension to the last name, which has none. What stands behind the name, such as a
slash, is dropped; a path without a last name stays as it is. -/
def addExtension (path extension : String) : String :=
  match fileName? path with
  | none => path
  | some _ =>
    let before := path.toList.reverse.drop (trailingLength path.toList.reverse)
    String.ofList before.reverse ++ "." ++ extension
where
  /-- The number of characters behind the last name: slashes, and single dots between them. -/
  trailingLength : List Char → Nat
    | '/' :: rest => trailingLength rest + 1
    | '.' :: '/' :: rest => trailingLength rest + 2
    | _ => 0

/-- A leading `~/` stands for the home directory. -/
def expandHome (home : String) (path : String) : String :=
  match dropStart? ['~', '/'] path.toList with
  | some rest => join home (String.ofList rest)
  | none => path

end BulkTransfer.Path
