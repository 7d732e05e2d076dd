import VectorIcon.Template.Builtin
import VectorIcon.Template.Evaluation

/-!
# Templates from files

What a template from a file can name: the imports, the code, and the parts of the icon's name.
-/

namespace VectorIcon.Template

/-- The parts of a name as a record. -/
def nameValue (n : Name) : Value :=
  Value.ofFields [("raw_name", .text n.raw),
    ("name_part", .text n.own),
    ("name_part_pascal", .text n.ownPascal),
    ("name_part_camel", .text n.ownCamel),
    ("namespace_part", .text n.namespaceText),
    ("namespace_part_pascal", .text n.namespacePascal),
    ("namespace_part_camel", .text n.namespaceCamel),
    ("full_path", .text n.full),
    ("full_path_pascal", .text n.fullPascal),
    ("full_path_camel", .text n.fullCamel)]

/-- The variables that every template is given. -/
def iconVariables (l : Layout) (p : Parts) : Frame :=
  [("imports", .text (Kotlin.formatImports p.imports l.groupImports)),
    ("build_code", .text p.code),
    ("icon_name", .text p.name.ownPascal),
    ("icon", .text p.name.ownCamel),
    ("namespace", .text p.name.namespacePascal),
    ("full_name", .text p.name.fullPascal),
    ("name", nameValue p.name)]

/-- The text of a template in the tight layout. -/
def renderCustom (l : Layout) (template : String) (p : Parts) : Except Error String :=
  render true template (iconVariables l p)

end VectorIcon.Template
