import VectorIcon.Config.Basic
import VectorIcon.FileSystem.Fault
import VectorIcon.Template.Multicolor

/-!
# From a drawing to code

A conversion reads a drawing, names it, writes the code of its icon and puts it into a template: the
multicolor template when the icon has a color of its table, else the template of the settings, else a
built-in one.
-/

namespace VectorIcon

namespace Conversion

/-- What a conversion is told. -/
structure Options where
  /-- The name of the icon; points set categories apart. -/
  name : Option String := none
  /-- The file that the drawing comes from. -/
  file : Option FilePath := none
  template : Template.Builtin := .expression
  config : Config := {}
  mode : Svg.Mode := .strict

/-- Why a drawing is not converted. -/
inductive Error
  | drawing (error : Svg.Error)
  | file (path : FilePath) (fault : FileFault)
  | template (error : Template.Error)

/-- The message about a file that cannot be read. -/
def fileMessage (path : FilePath) (fault : FileFault) : String :=
  "failed to access " ++ path.text ++ ": " ++ fault.message

/-- The message of an error. -/
def Error.message : Error → String
  | .drawing error => error.message
  | .file path fault => fileMessage path fault
  | .template error => "template error: " ++ error.message

end Conversion

/-- A drawing with its icon, its name and its code. -/
structure Conversion where
  code : String
  icon : Icon
  name : Name
  imports : List String
  warnings : Warning.Log

namespace Conversion

/-- The name of an icon: the one that is given, else the one of the document, else the one of its file. -/
def nameOf (o : Options) (documentName : String) : Name :=
  let own := if documentName = Svg.defaultName then none else some documentName
  match o.name.or own, o.file with
  | some name, _ => .ofText name
  | none, some file => .ofFile file none
  | none, none => .ofText documentName

/-- The layout of templates under some settings. -/
def templateLayout (c : Config) : Template.Layout :=
  ⟨c.groupImports, c.indentSize⟩

/-- The text of a template file, from what is known about files. -/
def templateText (files : FilePath → Except FileFault String) (path : FilePath) :
    Except Error String :=
  (files path).mapError (.file path)

/-- The multicolor template filled in, when there is one and the icon has a color of its table. -/
def multicolorText (files : FilePath → Except FileFault String) (c : Config) (icon : Icon)
    (name : Name) : Except Error (Option String) :=
  match c.multicolorTemplate with
  | none => .ok none
  | some path => do
    let template ← templateText files path
    (Template.renderMulticolor (templateLayout c) template c.layout [] icon name).mapError .template

/-- The other template filled in. -/
def plainText (files : FilePath → Except FileFault String) (o : Options) (p : Template.Parts) :
    Except Error String :=
  match o.config.template with
  | none => .ok (o.template.render (templateLayout o.config) p)
  | some path => do
    let template ← templateText files path
    (Template.renderCustom (templateLayout o.config) template p).mapError .template

/-- The conversion of a text. `files` tells what template files hold. -/
def convert (files : FilePath → Except FileFault String) (o : Options) (text : String) :
    Except Error Conversion := do
  let drawing ← (Svg.parse o.mode text).mapError .drawing
  let name := nameOf o drawing.icon.name
  let icon := { drawing.icon with name := name.raw }
  let generated := Kotlin.generate o.config.layout (.ofEntries []) icon
  let parts : Template.Parts := ⟨generated.code, generated.imports, name⟩
  let code ← match ← multicolorText files o.config icon name with
    | some code => pure code
    | none => plainText files o parts
  return ⟨code, icon, name, parts.imports, drawing.warnings⟩

end Conversion

end VectorIcon
