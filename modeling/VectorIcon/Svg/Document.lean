import VectorIcon.Markup.Document
import VectorIcon.Svg.Walk

/-!
# Drawings as icons

`read` turns the root element of a drawing into an icon and the warnings about it. A fault in path data
fails a strict reading; a lenient one drops the path with a warning. In both the sizes of the icon are
checked last.
-/

namespace VectorIcon.Svg

open Markup

/-- How faults in path data are taken. -/
inductive Mode
  | strict
  | lenient
  deriving Repr, DecidableEq

/-- Why a text gives no icon. -/
inductive Error
  | markup (error : Markup.Error)
  | wrongRoot (tag : String)
  | path (error : Path.Error)
  | size (error : Icon.SizeError)

/-- The message of an error. -/
def Error.message : Error → String
  | .markup error => "Malformed XML: " ++ error.message
  | .wrongRoot tag => "Root element is <" ++ tag ++ ">, expected <svg>"
  | .path error => error.message
  | .size error => error.message

/-- An icon and the warnings about the document that it comes from. -/
structure Drawing where
  icon : Icon
  warnings : Warning.Log

/-- The name of an icon without any identifier. -/
def defaultName : String := "UnnamedIcon"

/-- The name of a document: the identifier of its root, else of the first path that has one. -/
def documentName (root : Element) : String :=
  ((id? root).or ((root.descendants.filter fun e => e.name == "path").findSome? id?)).getD defaultName

/-- The warnings about elements that cannot be drawn. -/
def unsupported (root : Element) : List Notice :=
  root.descendants.filterMap fun e =>
    (Category.ofTag? e.name).map fun category => .warning (.unsupportedElement category e.name)

/-- The definitions of a document. -/
def define (root : Element) : Noted Definitions := do
  let d ← defineGradients root {}
  defineClips root d

/-- The icon of a root element with all that is to be told about it. -/
def survey (root : Element) : Noted Icon := do
  let _ ← (⟨(), unsupported root⟩ : Noted Unit)
  let d ← define root
  let nodes ← walkAll d root.children
  let width := readSize (root.attribute? "width")
  let height := readSize (root.attribute? "height")
  let (viewportWidth, viewportHeight) :=
    ((root.attribute? "viewBox").bind readViewBox?).getD (width, height)
  return {
    name := documentName root
    width, height, viewportWidth, viewportHeight, nodes
    autoMirror := false
    tint := none }

/-- The first fault among notices. -/
def firstFault? (notices : List Notice) : Option Path.Error :=
  notices.findSome? fun
    | .fault error => some error
    | .warning _ => none

/-- The warning that a notice is in a lenient reading. -/
def Notice.toWarning : Notice → Warning
  | .warning w => w
  | .fault error => .droppedPath error.message

/-- The icon of a root element, when it has sizes that an icon can have. -/
def checked (icon : Icon) : Except Icon.SizeError Icon := do
  let empty ← Icon.create icon.name icon.width icon.height icon.viewportWidth icon.viewportHeight
  return { empty with nodes := icon.nodes }

/-- The drawing of a root element. -/
def read (mode : Mode) (root : Element) : Except Error Drawing :=
  if root.name ≠ "svg" then .error (.wrongRoot root.name)
  else
    let result := survey root
    match mode, firstFault? result.notices with
    | .strict, some error => .error (.path error)
    | _, _ => do
      let icon ← (checked result.value).mapError .size
      return ⟨icon, .ofReports (result.notices.map Notice.toWarning)⟩

/-- The drawing of a text. -/
def parse (mode : Mode) (text : String) : Except Error Drawing := do
  let root ← (Markup.parse text).mapError .markup
  read mode root

end VectorIcon.Svg
