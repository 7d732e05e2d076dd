import VectorIcon.FileSystem.Path
import VectorIcon.Kotlin.Builder

/-!
# Settings

What a conversion can be told: which template files to use, and how code is laid out. `Config.merge` puts
the settings of one call over those of a file.
-/

namespace VectorIcon

/-- The settings of a conversion. -/
structure Config where
  /-- The template that wraps the code, in place of a built-in one. -/
  template : Option FilePath := none
  /-- The template that turns the colors of its table into parameters. -/
  multicolorTemplate : Option FilePath := none
  namedColors : Bool := true
  indentSize : Nat := 2
  maxLineLength : Nat := 120
  groupImports : Bool := true
  trailingCommas : Bool := true
  deriving Repr, DecidableEq

namespace Config

/-- Settings that are given one by one; none keeps what is configured. -/
structure Changes where
  template : Option FilePath := none
  multicolorTemplate : Option FilePath := none
  namedColors : Option Bool := none
  indentSize : Option Nat := none
  maxLineLength : Option Nat := none
  groupImports : Option Bool := none
  trailingCommas : Option Bool := none
  deriving Repr, DecidableEq

/-- The settings with some of them changed. -/
def merge (c : Config) (changes : Changes) : Config where
  template := changes.template.or c.template
  multicolorTemplate := changes.multicolorTemplate.or c.multicolorTemplate
  namedColors := changes.namedColors.getD c.namedColors
  indentSize := changes.indentSize.getD c.indentSize
  maxLineLength := changes.maxLineLength.getD c.maxLineLength
  groupImports := changes.groupImports.getD c.groupImports
  trailingCommas := changes.trailingCommas.getD c.trailingCommas

/-- The layout of code under these settings. -/
def layout (c : Config) : Kotlin.Options :=
  ⟨c.indentSize, c.maxLineLength, c.namedColors, c.trailingCommas⟩

@[simp] theorem merge_none (c : Config) : c.merge {} = c := rfl

end Config

end VectorIcon
