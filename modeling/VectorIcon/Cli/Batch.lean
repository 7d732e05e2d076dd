import VectorIcon.Cli.Convert

/-!
# Converting a directory

Every drawing below a directory becomes a file. Its directories are the namespace of the icon, and the
namespace gives the directories of the output. A drawing that cannot be read or converted, and a file that
cannot be written, are reported and do not stop the run.
-/

namespace VectorIcon.Cli

/-- The file is a drawing by its extension. -/
def isDrawing (path : FilePath) : Bool :=
  path.extension?.any fun extension => Text.lower extension.toList == "svg".toList

/-- The drawings among some files, in order. -/
def drawingsOf (files : List FilePath) : List FilePath :=
  (files.filter isDrawing).mergeSort FilePath.le

/-- The dotted name of the icon of a file below a directory. -/
def iconName (root file : FilePath) : String :=
  let folders := (file.components.drop root.components.length).dropLast
  ".".intercalate (folders.map FilePath.Component.text ++ (file.stem?.map fun _ => Name.stemText file).toList)

/-- The file that the code of an icon is written to. -/
def target (outDir : FilePath) (folders : Bool) (name : Name) : FilePath :=
  let parts := if folders then name.namespaceParts.map fun part =>
    String.ofList (Text.lower part.toList) else []
  (parts.foldl FilePath.join outDir).join (name.ownPascal ++ ".kt")

/-- How many drawings were converted, passed over and not converted. -/
structure Summary where
  processed : Nat := 0
  skipped : Nat := 0
  failed : Nat := 0
  deriving Repr, DecidableEq

/-- The lines of a summary. -/
def Summary.lines (s : Summary) : List String :=
  ["", "Successfully processed: " ++ toString s.processed, "Skipped: " ++ toString s.skipped,
    "Failed: " ++ toString s.failed]

/-- What holds for all drawings of a run. -/
structure BatchPlan where
  root : FilePath
  outDir : FilePath
  folders : Bool
  dryRun : Bool
  overwrite : Bool
  template : Template.Builtin
  config : Config
  mode : Svg.Mode

/-- How one drawing is converted. -/
def BatchPlan.options (plan : BatchPlan) (file : FilePath) : Conversion.Options :=
  { name := some (iconName plan.root file), file := some file, template := plan.template,
    config := plan.config, mode := plan.mode }

variable {m : Type → Type} [Monad m]

/-- The conversion of a file. -/
def convertFile (host : Host m) (plan : BatchPlan) (file : FilePath) :
    m (Except Error Conversion) := do
  match ← host.readText file with
  | .error fault => return .error (.input fault)
  | .ok text => return (← convertText host (plan.options file) text).mapError .conversion

/-- Reports that a file failed. -/
def reportFailure (host : Host m) (file : FilePath) (error : Error) (s : Summary) : m Summary := do
  host.reportLine ("Failed: " ++ file.text ++ ": " ++ error.message)
  return { s with failed := s.failed + 1 }

/-- Writes the code of a file to its target, unless something is there already or nothing is to be
written. -/
def place (host : Host m) (plan : BatchPlan) (file : FilePath) (conversion : Conversion)
    (s : Summary) : m Summary := do
  let path := target plan.outDir plan.folders conversion.name
  if (← host.isPresent path) && !plan.overwrite then
    host.printLine ("Skipped (exists): " ++ path.text)
    return { s with skipped := s.skipped + 1 }
  else if plan.dryRun then
    host.printLine ("Would create: " ++ path.text)
    return { s with processed := s.processed + 1 }
  else
    match ← host.save path (conversion.code ++ "\n") with
    | .ok _ =>
      host.printLine ("Generated " ++ path.text)
      return { s with processed := s.processed + 1 }
    | .error fault => reportFailure host file (.input fault) s

/-- Converts one drawing of a run. -/
def processFile (host : Host m) (plan : BatchPlan) (s : Summary) (file : FilePath) : m Summary := do
  match ← convertFile host plan file with
  | .ok conversion => place host plan file conversion s
  | .error error => reportFailure host file error s

/-- Converts some drawings, one after the other. -/
def processAll (host : Host m) (plan : BatchPlan) (files : List FilePath) : m Summary :=
  files.foldlM (processFile host plan) {}

/-- What a command line asks for: a directory that is there, and settings that can be read. -/
def planBatch (host : Host m) (a : Arguments) : ExceptT Error m BatchPlan := do
  match a.inputFile with
  | none => throw (.arguments .wrongUsage)
  | some root =>
    unless ← host.isDirectory root do throw .noFolder
    let config ← loadConfig host a
    return {
      root, outDir := ⟨a.output.getD "."⟩, folders := a.namespaceFolders, dryRun := a.dryRun
      overwrite := a.overwrite, template := a.template.getD .value, config, mode := a.mode }

/-- Converts some drawings and tells how many were converted. It is an error when some are not. -/
def convertAll (host : Host m) (plan : BatchPlan) (files : List FilePath) : ExceptT Error m Unit := do
  let summary ← ExceptT.lift (processAll host plan files)
  summary.lines.forM fun line => host.printLine line
  if 0 < summary.failed then throw (.someFailed summary.failed)

/-- Converts the drawings that a plan is about. -/
def carryOut (host : Host m) (plan : BatchPlan) : ExceptT Error m Unit := do
  let files := drawingsOf (← host.filesBelow plan.root)
  host.printLine ("Found " ++ toString files.length ++ " SVG files")
  if plan.dryRun then host.printLine "DRY RUN - no files will be written"
  convertAll host plan files

/-- Converts the drawings of a directory. -/
def runBatch (host : Host m) (a : Arguments) : ExceptT Error m Unit := do
  carryOut host (← planBatch host a)

end VectorIcon.Cli
