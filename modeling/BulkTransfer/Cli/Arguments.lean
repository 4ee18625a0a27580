import BulkTransfer.Keyed
import BulkTransfer.Text.Split

/-!
Arguments of the command line: a command with its operand, and switches that may stand before or
behind the name of the command. Each switch is given at most once before and once behind; the one
behind wins, and the environment stands in for both.
-/

namespace BulkTransfer.Cli

/-- What the program is asked to do. -/
inductive Task where
  /-- One command. -/
  | exec (command : String)
  /-- Commands from the input stream, one a line. -/
  | shell
  deriving DecidableEq, Repr

/-- A task and the switches for it. -/
structure Invocation where
  verbose : Bool
  /-- The path of the configuration. -/
  config? : Option String
  /-- The path of the dataset. -/
  data? : Option String
  task : Task
  deriving DecidableEq, Repr

/-- A command of which help can be shown. -/
inductive Topic where
  | program
  | exec
  | shell
  | help
  deriving DecidableEq, Repr

/-- Why there is nothing to do. -/
inductive Stop where
  /-- The arguments make no sense. -/
  | usage
  | help (topic : Topic)
  | version
  deriving DecidableEq, Repr

/-- The switches given in one place. -/
structure Switches where
  verbose : Bool
  config? : Option String
  data? : Option String
  deriving DecidableEq, Repr

/-- A switch that takes a path. -/
inductive PathSwitch where
  | config
  | data
  deriving DecidableEq, Repr

namespace Switches

/-- No switch is given. -/
def none : Switches := ⟨false, .none, .none⟩

/-- Turns the talkative mode on. -/
def setVerbose (s : Switches) : Except Stop Switches :=
  if s.verbose then .error .usage else .ok { s with verbose := true }

/-- Sets a path, which must not be empty. -/
def setPath (s : Switches) (which : PathSwitch) (path : String) : Except Stop Switches :=
  if path.isEmpty then .error .usage
  else match which with
    | .config => if s.config?.isSome then .error .usage else .ok { s with config? := some path }
    | .data => if s.data?.isSome then .error .usage else .ok { s with data? := some path }

end Switches

/-- Whether an argument is a switch: a lone hyphen is none. -/
def isSwitch (arg : String) : Bool :=
  match arg.toList with
  | '-' :: _ :: _ => true
  | _ => false

/-- Sets a path to the next argument. -/
def setNext (s : Switches) (which : PathSwitch) : List String → Except Stop (Switches × List String)
  | [] => .error .usage
  | arg :: rest =>
    if isSwitch arg then .error .usage else (s.setPath which arg).map fun s => (s, rest)

/-- Sets a path to the text behind an equals sign, or to the next argument. -/
def setAttached (s : Switches) (which : PathSwitch) (value? : Option String)
    (rest : List String) : Except Stop (Switches × List String) :=
  match value? with
  | some value => (s.setPath which value).map fun s => (s, rest)
  | none => setNext s which rest

/-- The name of a long switch and the text behind its equals sign. -/
def splitLong (body : List Char) : String × Option String :=
  match Text.cut? '=' body with
  | some (name, value) => (String.ofList name, some (String.ofList value))
  | none => (String.ofList body, none)

/-- Takes a long switch, without its hyphens. -/
def takeLong (topic : Topic) (s : Switches) (body : List Char) (rest : List String) :
    Except Stop (Switches × List String) :=
  match splitLong body with
  | ("verbose", none) => s.setVerbose.map fun s => (s, rest)
  | ("config", value?) => setAttached s .config value? rest
  | ("data", value?) => setAttached s .data value? rest
  | ("help", none) => .error (.help topic)
  | ("version", none) => .error (if topic = .program then .version else .usage)
  | _ => .error .usage

/-- The path that follows the letter of a switch in one argument. -/
def attached? : List Char → Option String
  | [] => none
  | '=' :: value => some (String.ofList value)
  | value => some (String.ofList value)

/-- Takes short switches that stand behind one hyphen. -/
def takeShort (topic : Topic) (s : Switches) : List Char → List String →
    Except Stop (Switches × List String)
  | [], rest => .ok (s, rest)
  | 'v' :: more, rest => match s.setVerbose with
    | .ok s => takeShort topic s more rest
    | .error e => .error e
  | 'c' :: more, rest => setAttached s .config (attached? more) rest
  | 'd' :: more, rest => setAttached s .data (attached? more) rest
  | 'h' :: _, _ => .error (.help topic)
  | 'V' :: _, _ => .error (if topic = .program then .version else .usage)
  | _ :: _, _ => .error .usage

/-- Takes an argument that is a switch. -/
def takeSwitch (topic : Topic) (s : Switches) (arg : String) (rest : List String) :
    Except Stop (Switches × List String) :=
  match arg.toList with
  | '-' :: '-' :: body => takeLong topic s body rest
  | '-' :: letters => takeShort topic s letters rest
  | _ => .error .usage

/-- Takes the arguments behind the name of a command: switches and up to `room` operands. Behind two
hyphens all are operands. Each step takes at least one argument, so as many steps as arguments
suffice. -/
def takeAll (topic : Topic) : Nat → Nat → Switches → List String →
    Except Stop (Switches × List String)
  | _, _, s, [] => .ok (s, [])
  | 0, _, _, _ => .error .usage
  | steps + 1, room, s, arg :: rest =>
    if arg = "--" then if rest.length ≤ room then .ok (s, rest) else .error .usage
    else if isSwitch arg then
      match takeSwitch topic s arg rest with
      | .ok (s, rest) => takeAll topic steps room s rest
      | .error e => .error e
    else match room with
      | 0 => .error .usage
      | room + 1 => match takeAll topic steps room s rest with
        | .ok (s, operands) => .ok (s, arg :: operands)
        | .error e => .error e

/-- What help is asked for. -/
def helpTopic : List String → Stop
  | [] => .help .program
  | ["exec"] => .help .exec
  | ["shell"] => .help .shell
  | ["help"] => .help .help
  | _ => .usage

/-- The switches before a command, its task, and the switches behind it. -/
structure Request where
  before : Switches
  behind : Switches
  task : Task

/-- Reads a command and what stands behind its name. -/
def readCommand (before : Switches) (name : String) (rest : List String) : Except Stop Request :=
  match name with
  | "exec" => match takeAll .exec (rest.length + 1) 1 .none rest with
    | .ok (behind, [command]) => .ok ⟨before, behind, .exec command⟩
    | .ok _ => .error .usage
    | .error e => .error e
  | "shell" => match takeAll .shell (rest.length + 1) 0 .none rest with
    | .ok (behind, []) => .ok ⟨before, behind, .shell⟩
    | .ok _ => .error .usage
    | .error e => .error e
  | "help" => .error (helpTopic rest)
  | _ => .error .usage

/-- Reads all arguments, in at most so many steps. -/
def readRequest : Nat → Switches → List String → Except Stop Request
  | 0, _, _ => .error .usage
  | _ + 1, _, [] => .error .usage
  | steps + 1, s, arg :: rest =>
    if isSwitch arg then
      match takeSwitch .program s arg rest with
      | .ok (s, rest) => readRequest steps s rest
      | .error e => .error e
    else readCommand s arg rest

/-- The variables of the environment, in order of their names. -/
abbrev Environment := Keyed String

/-- A path from behind the command, from before it, or from the environment. A variable that
is asked for must not be empty. -/
def choosePath (behind? before? outer? : Option String) : Except Stop (Option String) :=
  match behind?, before?, outer? with
  | some path, some _, _ => .ok (some path)
  | _, _, some "" => .error .usage
  | some path, none, _ => .ok (some path)
  | none, some path, _ => .ok (some path)
  | none, none, path? => .ok path?

/-- Reads the arguments. -/
def readArguments (env : Environment) (args : List String) : Except Stop Invocation :=
  match readRequest (args.length + 1) .none args with
  | .error e => .error e
  | .ok r =>
    match choosePath r.behind.config? r.before.config? (env.get? "TABLECOPY_CONFIG"),
        choosePath r.behind.data? r.before.data? (env.get? "TABLECOPY_DATA") with
    | .ok config?, .ok data? =>
      .ok ⟨r.before.verbose || r.behind.verbose, config?, data?, r.task⟩
    | _, _ => .error .usage

end BulkTransfer.Cli
