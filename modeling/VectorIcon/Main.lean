import VectorIcon.Cli.Run

/-!
# The program

The operations of a machine, and the program that runs a command line on it.
-/

namespace VectorIcon.Machine

/-- The number is the code of a fault, with either sign. -/
def isCode (code number : UInt32) : Bool :=
  number == code || number == -code

/-- The fault that an error of the machine is. -/
def faultOf : IO.Error → FileFault
  | .noFileOrDirectory .. => .missing
  | .alreadyExists .. => .alreadyThere
  | .inappropriateType _ number message =>
    if isCode 21 number then .isDirectory
    else if isCode 20 number then .notDirectory
    else .other message
  | error => .other (toString error)

/-- The result of an action, or its fault. -/
def attempt {α : Type} (action : IO α) : IO (Except FileFault α) := do
  try return .ok (← action)
  catch error => return .error (faultOf error)

/-- There is a directory at a path. -/
def isDirectory (path : FilePath) : IO Bool := do
  if path.text.isEmpty then return false
  ((← IO.currentDir) / path.text).isDir

/-- There is a file or a directory at a path. -/
def isPresent (path : FilePath) : IO Bool := do
  if path.text.isEmpty then return false
  ((← IO.currentDir) / path.text).pathExists

/-- The files below a directory. -/
partial def filesBelow (path : FilePath) : IO (List FilePath) := do
  let entries ← try ((← IO.currentDir) / path.text).readDir catch _ => pure #[]
  let mut files := []
  for entry in entries do
    let below := path.join entry.fileName
    if ← isDirectory below then files := files ++ (← filesBelow below)
    else files := files ++ [below]
  return files

/-- Makes directories from the top down. -/
def makeDirectories : List FilePath → IO (Except FileFault Unit)
  | [] => return .ok ()
  | folder :: rest => do
    match ← attempt (IO.FS.createDir folder.text) with
    | .ok _ => makeDirectories rest
    | .error fault =>
      if ← isDirectory folder then makeDirectories rest
      else return .error (if fault = .alreadyThere ∧ !rest.isEmpty then .notDirectory else fault)

/-- Writes a file, and before that the directories that it is in. -/
def save (path : FilePath) (text : String) : IO (Except FileFault Unit) := do
  match ← makeDirectories path.folders with
  | .ok _ => attempt (IO.FS.writeFile path.text text)
  | .error fault => return .error fault

/-- The machine as a host. -/
def host : Host IO where
  read path := attempt (IO.FS.readBinFile path.text)
  readInput := do (← IO.getStdin).readBinToEnd
  isDirectory
  isPresent
  filesBelow
  save
  print text := do (← IO.getStdout).putStr text
  report text := do (← IO.getStderr).putStr text

end VectorIcon.Machine

/-- Runs the command line of the program. -/
def main (arguments : List String) : IO UInt32 :=
  VectorIcon.Cli.run VectorIcon.Machine.host arguments
