import VectorIcon.Cli.Batch
import VectorIcon.Cli.Info

/-!
# Running a command line
-/

namespace VectorIcon.Cli

variable {m : Type → Type} [Monad m]

/-- The lines about the built-in templates. -/
def templateLines : List String :=
  "Built-in templates:" :: Template.Builtin.all.map fun template =>
    "  " ++ template.name.pushn ' ' (20 - template.name.length) ++ " " ++ template.description

/-- Does what a command line asks for. -/
def runCommand (host : Host m) (a : Arguments) : ExceptT Error m Unit :=
  match a.command with
  | .help => host.print usage
  | .convert => runConvert host a
  | .batch => runBatch host a
  | .info => runInfo host a
  | .templates => templateLines.forM fun line => host.printLine line
  | .version => host.printLine version

/-- Runs a command line and gives the number that the run ends with. -/
def run (host : Host m) (arguments : List String) : m UInt32 := do
  let result ← match Arguments.parse arguments with
    | .error error => pure (.error (.arguments error))
    | .ok a => (runCommand host a).run
  match result with
  | .ok _ => return 0
  | .error error =>
    host.reportLine error.message
    return error.exitCode

end VectorIcon.Cli
