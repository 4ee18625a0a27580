import BulkTransfer.Cli.Help
import BulkTransfer.Columnar.Storage
import BulkTransfer.Config
import BulkTransfer.Copy
import BulkTransfer.Session.Dataset
import BulkTransfer.Text.Line

/-!
A run of the program from its arguments to its exit: the configuration is found, the log is opened,
the dataset is loaded and the commands are carried out, with what they print on the two streams.
-/

namespace BulkTransfer.Cli

/-- What was printed. -/
structure Console where
  output : Bytes
  errors : Bytes

namespace Console

/-- Nothing was printed. -/
def empty : Console := ⟨[], []⟩

/-- Prints bytes on the output stream. -/
def write (c : Console) (b : Bytes) : Console := { c with output := c.output ++ b }

/-- Prints a line on the output stream. -/
def print (c : Console) (line : String) : Console := c.write (Bytes.ofText (line ++ "\n"))

/-- Prints a line on the error stream. -/
def complain (c : Console) (line : String) : Console :=
  { c with errors := c.errors ++ Bytes.ofText (line ++ "\n") }

end Console

/-! ## The configuration -/

/-- The home directory. -/
def homeOf (env : Environment) : String :=
  match env.get? "HOME" with
  | some "" | none => "/"
  | some home => home

/-- The directory of configurations: an absolute path from the environment, or one at home. -/
def configDirectory (env : Environment) : String :=
  let atHome := Path.join (homeOf env) ".config"
  match env.get? "XDG_CONFIG_HOME" with
  | some directory => if Path.isAbsolute directory then directory else atHome
  | none => atHome

/-- The paths at which a configuration is looked for where none is named. -/
def configPlaces (env : Environment) : List String :=
  [configDirectory env, Path.join (homeOf env) ".config"].map fun directory =>
    Path.join (Path.join directory "tablecopy") "config.toml"

/-- Reads the configuration at a path. -/
def readConfig (tree : FileTree) (path : String) : Except Failure Config :=
  match tree.readText path with
  | .error fault => .error (.config (path ++ ": " ++ fault.message))
  | .ok text => Config.ofToml text

/-- The first configuration of paths that can be used. -/
def firstConfig (tree : FileTree) : List String → Config
  | [] => .empty
  | path :: more => match readConfig tree path with
    | .ok config => config
    | .error _ => firstConfig tree more

/-- The configuration of a run, or why it cannot be used. Only one that was named is missed. -/
def configOf (env : Environment) (tree : FileTree) (i : Invocation) : Except String Config :=
  match i.config? with
  | none => .ok ((firstConfig tree (configPlaces env)).withVariables env)
  | some path => match readConfig tree path with
    | .ok config => .ok (config.withVariables env)
    | .error e => .error ("Failed to load configuration: reading " ++ path ++ ": " ++ e.message)

/-! ## The log and the dataset -/

/-- Makes the directory of a log file and the file. -/
def makeLog (tree : FileTree) (path : String) : FileTree × Option Failure :=
  let (tree, fault?) := match Path.parent? path with
    | some directory => tree.makeDirectories directory
    | none => (tree, none)
  match fault? with
  | some fault => (tree, some (.operation "create_log_dir" fault.message))
  | none => match tree.ensureFile path with
    | .ok tree => (tree, none)
    | .error fault => (tree, some (pathFailure "open_log_file" path fault))

/-- Makes the log file if there shall be one. -/
def openLog (tree : FileTree) (c : Config) : FileTree × Option Failure :=
  match c.logging.file? with
  | some path => makeLog tree path
  | none => (tree, none)

/-- The session of a dataset, or an empty one where none is named. -/
def sessionOf (tree : FileTree) (i : Invocation) : Except String Session :=
  match i.data? with
  | none => .ok (Session.new none)
  | some path =>
    let loaded : Except Failure Session := match tree.readText path with
      | .error fault => .error (pathFailure "read_dataset" path fault)
      | .ok text => Session.ofText text
    match loaded with
    | .ok session => .ok session
    | .error e => .error ("Error: loading dataset " ++ path ++ ": " ++ e.message)

/-! ## Commands -/

/-- A run between two commands. -/
structure State where
  world : Copy.World
  console : Console
  /-- The bytes of the input stream still to read. -/
  input : Bytes
  /-- Whether all commands have succeeded. -/
  succeeded : Bool

/-- How commands are carried out in a run. -/
structure Setting where
  defaults : Options
  home : String

/-- The bytes that one reading of the input stream takes. -/
def blockSize : Nat := 8192

/-- What is left of the input where a command has left some bytes of it: those of the blocks that
it has not begun to read. The whole input has `total` bytes. -/
def unreadBlocks (total : Nat) (input left : Bytes) : Bytes :=
  let start := total - input.length
  let stop := total - left.length
  if stop ≤ start then input
  else input.drop ((stop + blockSize - 1) / blockSize * blockSize - start)

/-- Takes note of a failed command. -/
def State.fail (s : State) (line : String) : State :=
  { s with console := s.console.complain line, succeeded := false }

/-- Carries out one command and prints its status, which goes to the error stream where rows go to
the output stream. -/
def runCommand (setting : Setting) (total : Nat) (s : State) (command : String) : State :=
  if Command.isCommand command then
    match Command.parse setting.home command with
    | .error e => s.fail ("Error: " ++ e.message)
    | .ok transfer =>
      let done := Copy.run ⟨setting.defaults, true⟩ s.world transfer s.input
      let s : State :=
        { s with
          world := done.world
          console := s.console.write done.output
          input := unreadBlocks total s.input done.unread }
      match done.result with
      | .error e => s.fail ("Error: " ++ e.message)
      | .ok summary => match transfer.target with
        | .stdout => { s with console := s.console.complain summary.text }
        | _ => { s with console := s.console.print summary.text }
  else s.fail ("Unsupported command: " ++ command)

/-- Carries out the command of a line; a blank line has none. -/
def runLine (setting : Setting) (total : Nat) (s : State) (line : String) : State :=
  let command := Text.trimmed line
  if command.isEmpty then s else runCommand setting total s command

/-- Carries out the commands of the input stream line by line. Each line takes at least one byte, so
as many steps as bytes suffice. -/
def runLines (setting : Setting) (total : Nat) : Nat → State → State
  | 0, s => s
  | steps + 1, s => match s.input with
    | [] => s
    | b :: more =>
      let (line, rest) := Bytes.takeLine (b :: more)
      let s := { s with input := rest }
      match Bytes.toText? line with
      | none => s.fail ("Error: reading stdin: " ++ FileFault.notText.message)
      | some text => runLines setting total steps (runLine setting total s text)

/-- Carries out a task. -/
def runTask (setting : Setting) (s : State) : Task → State
  | .exec command => runCommand setting s.input.length s command
  | .shell => runLines setting s.input.length (s.input.length + 1) s

/-! ## The run -/

/-- How a run ends. -/
structure Ended where
  exit : Nat
  console : Console
  tree : FileTree

/-- Ends a run that has failed with a line. -/
def endFailed (tree : FileTree) (line : String) : Ended :=
  ⟨1, Console.empty.complain line, tree⟩

/-- Ends a run that had nothing to do. -/
def endStopped (env : Environment) (tree : FileTree) : Stop → Ended
  | .usage =>
    ⟨2, Console.empty.complain "error: invalid arguments\n\nFor more information, try '--help'.",
      tree⟩
  | .help topic => ⟨0, Console.empty.write (Bytes.ofText (helpText env topic)), tree⟩
  | .version => ⟨0, Console.empty.write (Bytes.ofText versionText), tree⟩

/-- Runs what was asked for, under a configuration. -/
def runConfigured (env : Environment) (i : Invocation) (config : Config) (input : Bytes)
    (tree : FileTree) : Ended :=
  match openLog tree config with
  | (tree, some e) => endFailed tree ("Failed to initialize observability: " ++ e.message)
  | (tree, none) => match sessionOf tree i with
    | .error line => endFailed tree line
    | .ok session =>
      let start : State := ⟨⟨session, tree⟩, .empty, input, true⟩
      let s := runTask ⟨config.defaults, homeOf env⟩ start i.task
      ⟨if s.succeeded then 0 else 1, s.console, s.world.tree⟩

/-- Runs the program. -/
def run (env : Environment) (args : List String) (input : Bytes) (tree : FileTree) : Ended :=
  match readArguments env args with
  | .error stop => endStopped env tree stop
  | .ok i => match configOf env tree i with
    | .error line => endFailed tree line
    | .ok config => runConfigured env i config input tree

end BulkTransfer.Cli
