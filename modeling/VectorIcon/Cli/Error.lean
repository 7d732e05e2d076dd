import VectorIcon.Cli.Arguments
import VectorIcon.Cli.Usage
import VectorIcon.Conversion

/-!
# Why a run fails

A run that is asked for in the wrong way ends with 2, any other run that fails with 1.
-/

namespace VectorIcon.Cli

/-- Why a run fails. -/
inductive Error
  | arguments (error : ArgumentError)
  | noFolder
  | input (fault : FileFault)
  | config
  | configFile (path : FilePath) (fault : FileFault)
  | conversion (error : Conversion.Error)
  | someFailed (count : Nat)

/-- The message of an error in the arguments. -/
def ArgumentError.message : ArgumentError → String
  | .wrongUsage => usage
  | .unknownTemplate name => "Error: " ++ Template.Builtin.unknownMessage name

/-- The message of an error. -/
def Error.message : Error → String
  | .arguments error => error.message
  | .noFolder => "batch expects an input directory"
  | .input fault => "I/O error: " ++ fault.message
  | .config => "Error: config JSON error"
  | .configFile path fault => "Error: " ++ Conversion.fileMessage path fault
  | .conversion error => "Error: " ++ error.message
  | .someFailed count => toString count ++ " file(s) failed to convert"

/-- The number that a failing run ends with. -/
def Error.exitCode : Error → UInt32
  | .arguments _ | .noFolder => 2
  | _ => 1

end VectorIcon.Cli
