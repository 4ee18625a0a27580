import BulkTransfer.Cli.Run
import BulkTransfer.Columnar.Storage

/-!
What a run of the program can touch outside of it: variables, the input stream, and paths. Only
what is named here is looked up, and only what has changed is written back.
-/

namespace BulkTransfer.Cli

/-- The variables that a run can ask for. -/
def variableNames : List String :=
  ["HOME", "XDG_CONFIG_HOME"] ++
    (["CONFIG", "DATA", "LOG_FORMAT", "LOG_FILE"] ++ Config.variableOptions).map
      (Config.variableStart ++ ·)

/-- The paths of configurations. -/
def configPaths (env : Environment) (i : Invocation) : List String :=
  match i.config? with
  | some path => [path]
  | none => configPlaces env

/-- The paths that a command can touch: its target, with and without an extension. -/
def commandPaths (home command : String) : List String :=
  match Command.parse home command with
  | .ok ⟨_, _, _, .path path, _⟩ => [path, exportPath path]
  | _ => []
where
  /-- The path of a single columnar file. -/
  exportPath (path : String) : String := Copy.exportPath path .columnar false

/-- Whether a task reads the input stream. -/
def readsInput (home : String) : Task → Bool
  | .shell => true
  | .exec command => match Command.parse home command with
    | .ok t => t.target == .stdin
    | .error _ => false

/-- The commands that a task can carry out: those of its operand or of the lines of the input. -/
def commandsOf (input : Bytes) : Task → List String
  | .exec command => [command]
  | .shell => (Text.splitAll '\n' ((Bytes.toText? input).getD "").toList).map fun line =>
      String.ofList (Text.trim line)

/-- The paths that a task can touch under a configuration. -/
def taskPaths (env : Environment) (i : Invocation) (config : Config) (input : Bytes) :
    List String :=
  config.logging.file?.toList ++ i.data?.toList ++
    (commandsOf input i.task).flatMap (commandPaths (homeOf env))

/-- The content of a file with the given bytes. -/
def contentOf (b : Bytes) : Content :=
  match Columnar.Storage.decode? b with
  | some f => .columnar f
  | none => .bytes b

/-- The bytes of a file. -/
def bytesOf : Content → Bytes
  | .bytes b => b
  | .columnar f => Columnar.Storage.encode f

/-- The path of a place. -/
def pathOf : Place → String
  | "/" :: names => "/" ++ Text.joined "/" names
  | names => Text.joined "/" names

/-- A step that brings the files outside in line with a tree. -/
inductive Change where
  | makeDirectory (path : String)
  | writeFile (path : String) (bytes : Bytes)

/-- The step that an entry asks for, unless the tree before had it. -/
def change? (before : FileTree) : Place × Node → Option Change
  | (place, .directory) =>
    if before.hasDirectory place then none else some (.makeDirectory (pathOf place))
  | (place, .file content) =>
    let bytes := bytesOf content
    match before.node? place with
    | some (.file old) => if bytesOf old = bytes then none else some (.writeFile (pathOf place) bytes)
    | _ => some (.writeFile (pathOf place) bytes)

/-- The steps from one tree to a later one. -/
def changes (before after : FileTree) : List Change := after.entries.filterMap (change? before)

end BulkTransfer.Cli
