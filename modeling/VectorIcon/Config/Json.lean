import VectorIcon.Config.Basic
import VectorIcon.Json.Reader
import VectorIcon.Json.Printer

/-!
# Settings as data values

Settings are a record, or a list of values in the order of the fields. What is missing has its default.
A field that stands twice is refused, under one of its names or under both; a field that is not known
is passed over.
-/

namespace VectorIcon.Config

/-- A setting. -/
inductive Field
  | template
  | multicolorTemplate
  | namedColors
  | indentSize
  | maxLineLength
  | groupImports
  | trailingCommas
  deriving Repr, DecidableEq

/-- The settings in order. -/
def Field.all : List Field :=
  [.template, .multicolorTemplate, .namedColors, .indentSize, .maxLineLength, .groupImports,
    .trailingCommas]

/-- The name of a setting. -/
def Field.name : Field → String
  | .template => "template_path"
  | .multicolorTemplate => "multicolor_template_path"
  | .namedColors => "use_named_colors"
  | .indentSize => "indent_size"
  | .maxLineLength => "max_line_length"
  | .groupImports => "group_imports"
  | .trailingCommas => "use_trailing_comma"

/-- The setting of a name; the one for named colors has two. -/
def Field.ofName? (name : String) : Option Field :=
  if name = "optimize_colors" then some .namedColors
  else Field.all.find? fun field => field.name == name

/-- A path or nothing. -/
def readPath? : Json → Option (Option FilePath)
  | .null => some none
  | .text value => some (some ⟨value⟩)
  | _ => none

/-- A truth value. -/
def readFlag? : Json → Option Bool
  | .boolean value => some value
  | _ => none

/-- A count that fits a word of 64 bits. -/
def readCount? : Json → Option Nat
  | .integer value => if 0 ≤ value ∧ value < UInt64.size then some value.toNat else none
  | _ => none

/-- The settings with one of them set to a data value. -/
def set? (c : Config) (field : Field) (value : Json) : Option Config :=
  match field with
  | .template => (readPath? value).map fun path => { c with template := path }
  | .multicolorTemplate => (readPath? value).map fun path => { c with multicolorTemplate := path }
  | .namedColors => (readFlag? value).map fun flag => { c with namedColors := flag }
  | .indentSize => (readCount? value).map fun n => { c with indentSize := n }
  | .maxLineLength => (readCount? value).map fun n => { c with maxLineLength := n }
  | .groupImports => (readFlag? value).map fun flag => { c with groupImports := flag }
  | .trailingCommas => (readFlag? value).map fun flag => { c with trailingCommas := flag }

/-- The settings with all the given ones set. -/
def setAll? (c : Config) (settings : List (Field × Json)) : Option Config :=
  settings.foldlM (fun c setting => c.set? setting.1 setting.2) c

/-- The settings that a data value gives. -/
def ofJson? : Json → Option Config
  | .record entries =>
    let settings := entries.filterMap fun entry =>
      (Field.ofName? entry.1).map fun field => (field, entry.2)
    if (settings.map Prod.fst).Nodup then ({} : Config).setAll? settings else none
  | .list values =>
    if values.length ≤ Field.all.length then ({} : Config).setAll? (Field.all.zip values) else none
  | _ => none

/-- The settings that a text gives. -/
def parse? (text : String) : Option Config :=
  (Json.parse? text).bind ofJson?

/-- A setting as a data value. -/
def get (c : Config) : Field → Json
  | .template => c.template.elim .null fun path => .text path.text
  | .multicolorTemplate => c.multicolorTemplate.elim .null fun path => .text path.text
  | .namedColors => .boolean c.namedColors
  | .indentSize => .integer c.indentSize
  | .maxLineLength => .integer c.maxLineLength
  | .groupImports => .boolean c.groupImports
  | .trailingCommas => .boolean c.trailingCommas

/-- The settings as a data value. -/
def toJson (c : Config) : Json :=
  .record (Field.all.map fun field => (field.name, c.get field))

/-- The settings as text. -/
def print (c : Config) : String :=
  c.toJson.pretty

/-- The content of a file of settings. -/
def fileContent (c : Config) : String :=
  c.print ++ "\n"

end VectorIcon.Config
