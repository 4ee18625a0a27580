import BulkTransfer.Failure
import BulkTransfer.Options.Basic
import BulkTransfer.Toml.Reader

/-!
Configuration: default values of options and settings of the log, from a TOML document and from
variables of the environment. Variables win over the document.

    [copy]
    header = true
    max_file_size = "256MB"

    [logging]
    format = "json"
    level = "debug"
    file = "/var/log/tablecopy.log"
-/

namespace BulkTransfer

/-- How lines of the log are written. -/
inductive LogFormat where
  | json
  | pretty
  deriving DecidableEq, Repr

namespace LogFormat

/-- The name of a format. -/
def name : LogFormat → String
  | json => "json"
  | pretty => "pretty"

/-- Reads a format; every name but one means the pretty one. -/
def ofName (s : String) : LogFormat :=
  if (Text.trim s.toList).map Char.toLower = "json".toList then json else pretty

end LogFormat

/-- Settings of the log. -/
structure LogSettings where
  format? : Option String
  level? : Option String
  file? : Option String
  deriving DecidableEq, Repr, Inhabited

namespace LogSettings

/-- Nothing is set. -/
def empty : LogSettings := ⟨none, none, none⟩

/-- The format in which the log is written. -/
def format (s : LogSettings) : LogFormat :=
  match s.format? with
  | some name => .ofName name
  | none => .pretty

end LogSettings

/-- Default values of options and settings of the log. -/
structure Config where
  defaults : Options
  logging : LogSettings
  deriving Repr, Inhabited

namespace Config

/-- Nothing is configured. -/
def empty : Config := ⟨.empty, .empty⟩

/-! ## Documents -/

/-- A field by its name. -/
def field? (name : String) (fields : List (String × Toml.Value)) : Option Toml.Value :=
  (fields.find? fun f => f.1 = name).map Prod.snd

/-- The failure of a document that does not have the shape of a configuration. -/
def shapeFailure (name expected : String) (found : Toml.Value) : Failure :=
  .config ("invalid type: " ++ found.kind ++ ", expected " ++ expected ++ " for key `" ++ name ++ "`")

/-- The only field of a date-time that stands where a table is expected. -/
def datetimeField : String := "$__toml_private_datetime"

/-- The default values that a document gives, under their names. A date-time counts as a table with
one field, its text. -/
def copyFields (fields : List (String × Toml.Value)) :
    Except Failure (List (String × Toml.Value)) :=
  match field? "copy" fields with
  | none => .ok []
  | some (.table inner) =>
    if Toml.Value.fieldsNarrow inner then .ok (Keyed.ofPairs inner)
    else .error (.config "integer out of range in `copy`")
  | some (.datetime text) => .ok [(datetimeField, .string text)]
  | some other => .error (shapeFailure "copy" "a map" other)

/-- A field that is a text if it is there. -/
def textField (name : String) (fields : List (String × Toml.Value)) :
    Except Failure (Option String) :=
  match field? name fields with
  | none => .ok none
  | some (.string s) => .ok (some s)
  | some other => .error (shapeFailure name "a string" other)

/-- The settings of the log that a document gives: a table, or a list of the three values. -/
def logSettings (fields : List (String × Toml.Value)) : Except Failure LogSettings :=
  match field? "logging" fields with
  | none => .ok .empty
  | some (.table inner) => do
    let format? ← textField "format" inner
    let level? ← textField "level" inner
    let file? ← textField "file" inner
    pure ⟨format?, level?, file?⟩
  | some (.array (.string format :: .string level :: .string file :: _)) =>
    .ok ⟨some format, some level, some file⟩
  | some (.datetime _) => .ok .empty
  | some other => .error (shapeFailure "logging" "struct LoggingSettings" other)

/-- Sets options to the texts of scalars. -/
def setDefaults (o : Options) : List (String × Toml.Value) → Except Failure Options
  | [] => .ok o
  | (name, v) :: more => match v.scalarText? with
    | some text => setDefaults (o.set name text) more
    | none =>
      .error (.config ("[copy] " ++ name ++ ": expected a scalar, found " ++ v.kind))

/-- The configuration that a TOML document describes. Options are set in order of their names. -/
def ofToml (text : String) : Except Failure Config :=
  match Toml.parse? text with
  | none => .error (.config "TOML parse error")
  | some fields => do
    let copy ← copyFields fields
    let logging ← logSettings fields
    let defaults ← setDefaults .empty copy
    pure ⟨defaults, logging⟩

/-! ## The environment -/

/-- How the names of all variables begin. -/
def variableStart : String := "TABLECOPY_"

/-- The options that variables may set. -/
def variableOptions : List String :=
  ["HEADER", "DELIMITER", "QUOTE", "ESCAPE", "NULLVAL", "PAGESIZE", "CHUNKSIZE", "MAXBATCHSIZE",
   "MAXREQUESTS", "MAXROWS", "SKIPROWS", "MAXPARSEERRORS", "MAXINSERTERRORS", "MAX_OPEN_FILES",
   "MAX_FILE_SIZE", "COMPRESSION", "FORMAT"]

/-- Applies one variable; those with other names say nothing. -/
def override (c : Config) (key value : String) : Config :=
  match Text.dropStart? variableStart.toList key.toList with
  | none => c
  | some rest =>
    let name := Text.uppered (String.ofList rest)
    if name = "LOG_FORMAT" then { c with logging := { c.logging with format? := some value } }
    else if name = "LOG_FILE" then { c with logging := { c.logging with file? := some value } }
    else if name ∈ variableOptions then { c with defaults := c.defaults.set name value }
    else c

/-- Applies variables one after the other. -/
def withVariables (c : Config) (env : List (String × String)) : Config :=
  env.foldl (fun c v => c.override v.1 v.2) c

end Config

end BulkTransfer
