import VectorIcon.Cli.Error
import VectorIcon.Config.Json
import VectorIcon.FileSystem.Host

/-!
# Converting one drawing
-/

namespace VectorIcon.Cli

variable {m : Type → Type} [Monad m]

/-- The path that a command works on, unless it is a dash. -/
def Arguments.inputFile (a : Arguments) : Option FilePath :=
  (a.input.filter (· != "-")).map FilePath.mk

/-- How faults in path data are taken. -/
def Arguments.mode (a : Arguments) : Svg.Mode :=
  if a.lenient then .lenient else .strict

/-- The text of the input: of a file, or what is passed in. -/
def readInput (host : Host m) (a : Arguments) : ExceptT Error m String := do
  let text ← match a.inputFile with
    | some path => host.readText path
    | none => do
      let bytes ← host.readInput
      pure (textOfBytes bytes)
  match text with
  | .ok text => return text
  | .error fault => throw (.input fault)

/-- The settings: those of a file, where there is one, with the changes of the command line. -/
def loadConfig (host : Host m) (a : Arguments) : ExceptT Error m Config := do
  match a.configFile with
  | none => return ({} : Config).merge a.changes
  | some path =>
    match ← host.readText path with
    | .error .missing => return ({} : Config).merge a.changes
    | .error fault => throw (.configFile path fault)
    | .ok text =>
      match Config.parse? text with
      | some config => return config.merge a.changes
      | none => throw .config

/-- What the template files of some settings hold. -/
def readTemplates (host : Host m) (c : Config) : m (FilePath → Except FileFault String) := do
  let paths := c.multicolorTemplate.toList ++ c.template.toList
  let contents ← paths.mapM fun path => do return (path, ← host.readText path)
  return fun path => (contents.lookup path).getD (.error .missing)

/-- The conversion of a text with the template files of the host. -/
def convertText (host : Host m) (o : Conversion.Options) (text : String) :
    m (Except Conversion.Error Conversion) := do
  let files ← readTemplates host o.config
  return Conversion.convert files o text

/-- Converts one drawing and prints its code or writes it to a file. -/
def runConvert (host : Host m) (a : Arguments) : ExceptT Error m Unit := do
  let text ← readInput host a
  let config ← loadConfig host a
  let options : Conversion.Options :=
    { name := a.name, file := a.inputFile, template := a.template.getD .expression, config,
      mode := a.mode }
  match ← ExceptT.lift (convertText host options text) with
  | .error error => throw (.conversion error)
  | .ok conversion =>
    match a.output with
    | none => host.printLine conversion.code
    | some output =>
      match ← host.save ⟨output⟩ (conversion.code ++ "\n") with
      | .ok _ => host.printLine ("Generated " ++ output)
      | .error fault => throw (.input fault)

end VectorIcon.Cli
