import BulkTransfer.Cli.Arguments

/-!
The texts that the program shows about itself.
-/

namespace BulkTransfer.Cli

/-- The name and number of this version. -/
def versionText : String := "tablecopy 0.3.0\n"

/-- A variable of the environment as help shows it. -/
def variableText (env : Environment) (name : String) : String :=
  "[env: " ++ name ++ "=" ++ (env.get? name).getD "" ++ "]"

/-- The switches that all commands know. -/
def switchText (env : Environment) : String :=
  "Options:\n" ++
  "  -v, --verbose          Enable verbose output\n" ++
  "  -c, --config <CONFIG>  Path to configuration file " ++
    variableText env "TABLECOPY_CONFIG" ++ "\n" ++
  "  -d, --data <DATA>      JSON dataset loaded into the in-memory session " ++
    variableText env "TABLECOPY_DATA" ++ "\n" ++
  "  -h, --help             Print help\n"

/-- The help on a topic. -/
def helpText (env : Environment) : Topic → String
  | .program =>
    "Bulk COPY import/export engine for distributed tabular database shells\n\n" ++
    "Usage: tablecopy [OPTIONS] <COMMAND>\n\n" ++
    "Commands:\n" ++
    "  exec   Run one COPY command\n" ++
    "  shell  Read COPY commands from stdin, one per line\n" ++
    "  help   Print this message or the help of the given subcommand(s)\n\n" ++
    switchText env ++
    "  -V, --version          Print version\n"
  | .exec =>
    "Run one COPY command\n\n" ++
    "Usage: tablecopy exec [OPTIONS] <COMMAND>\n\n" ++
    "Arguments:\n" ++
    "  <COMMAND>  The command, e.g. `COPY ks.users TO 'users.csv' WITH HEADER=true`\n\n" ++
    switchText env
  | .shell =>
    "Read COPY commands from stdin, one per line\n\n" ++
    "Usage: tablecopy shell [OPTIONS]\n\n" ++
    switchText env
  | .help =>
    "Print this message or the help of the given subcommand(s)\n\n" ++
    "Usage: tablecopy help [COMMAND]...\n\n" ++
    "Arguments:\n" ++
    "  [COMMAND]...  Print help for the subcommand(s)\n"

end BulkTransfer.Cli
