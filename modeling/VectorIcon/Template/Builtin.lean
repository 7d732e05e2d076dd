import VectorIcon.Kotlin.Import
import VectorIcon.Name.Basic
import VectorIcon.Text.Pieces

/-!
# Built-in templates

A built-in template puts imports before the code of an icon and makes a declaration of it: nothing but the
expression, a value, an object, or a function.
-/

namespace VectorIcon.Template

open Text

/-- A template that needs no file. -/
inductive Builtin
  | expression
  | value
  | object
  | composable
  deriving Repr, DecidableEq

namespace Builtin

/-- The built-in templates in the order in which they are listed. -/
def all : List Builtin :=
  [.expression, .value, .object, .composable]

/-- The name of a template. -/
def name : Builtin → String
  | .expression => "default"
  | .value => "val_declaration"
  | .object => "icon_object"
  | .composable => "composable_function"

/-- What a template makes. -/
def description : Builtin → String
  | .expression => "Imports followed by the bare ImageVector.Builder expression"
  | .value => "A top-level `val <Name>Icon: ImageVector` declaration"
  | .object => "An `object <Name>Icon` exposing a lazily built `imageVector`"
  | .composable => "A @Composable function returning a remembered ImageVector"

/-- The template of a name, which may have blanks around it. -/
def ofName? (name : String) : Option Builtin :=
  all.find? fun template => template.name.toList == trim name.toList

/-- The message about a name that no template has. -/
def unknownMessage (name : String) : String :=
  "unknown template '" ++ name ++ "' (available: " ++ ", ".intercalate (all.map Builtin.name) ++ ")"

end Builtin

/-- What every template is given. -/
structure Parts where
  code : String
  imports : List String
  name : Name

/-- How templates lay out what they add. -/
structure Layout where
  groupImports : Bool := true
  indentSize : Nat := 2

/-- The blanks of some levels. -/
def Layout.indent (l : Layout) (levels : Nat) : String :=
  String.ofList (List.replicate (levels * l.indentSize) ' ')

/-- The lines of a text, those with characters after some blanks. -/
def indentLines (lead text : String) : String :=
  "\n".intercalate ((lines text.toList).map fun line =>
    if line.isEmpty then "" else lead ++ String.ofList line)

/-- Import lines, an empty line and a body; without imports only the body. -/
def withImports (l : Layout) (imports : List String) (body : String) : String :=
  let header := Kotlin.formatImports imports l.groupImports
  if header.isEmpty then body else header ++ "\n\n" ++ body

/-- The name that a declaration gives to an icon. -/
def declaredName (p : Parts) : String :=
  p.name.ownPascal ++ "Icon"

/-- The imports that a function needs besides those of its code. -/
def composableImports : List String :=
  ["androidx.compose.runtime.Composable", "androidx.compose.runtime.remember",
    "androidx.compose.ui.Modifier", "androidx.compose.ui.graphics.Color"]

/-- The declaration that a template makes. -/
def declaration (l : Layout) (p : Parts) : Builtin → String
  | .expression => p.code
  | .value => "val " ++ declaredName p ++ ": ImageVector = " ++ p.code
  | .object =>
    "\n".intercalate ["object " ++ declaredName p ++ " \x7b",
      l.indent 1 ++ "val imageVector: ImageVector by lazy \x7b",
      indentLines (l.indent 2) p.code, l.indent 1 ++ "\x7d", "\x7d"]
  | .composable =>
    "\n".intercalate ["@Composable", "fun " ++ declaredName p ++ "(",
      l.indent 1 ++ "modifier: Modifier = Modifier,",
      l.indent 1 ++ "tint: Color = Color.Unspecified",
      "): ImageVector \x7b", l.indent 1 ++ "return remember \x7b",
      indentLines (l.indent 2) p.code, l.indent 1 ++ "\x7d", "\x7d"]

/-- The imports that a template writes. -/
def importsOf (p : Parts) : Builtin → List String
  | .composable => composableImports ++ p.imports
  | _ => p.imports

/-- The text of a built-in template. -/
def Builtin.render (template : Builtin) (l : Layout) (p : Parts) : String :=
  withImports l (importsOf p template) (declaration l p template)

end VectorIcon.Template
