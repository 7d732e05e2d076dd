import VectorIcon.Color.Constant
import VectorIcon.Icon.Paint
import VectorIcon.Kotlin.Literal

/-!
# Colors and brushes in generated code

A color is written by its constant or as a word; an override replaces the text of one exact color. A
brush is a call over several lines.
-/

namespace VectorIcon.Kotlin

open Icon

/-- Texts that replace colors, the latest first. -/
abbrev Overrides := List (Color × String)

/-- The overrides of a list, in which the later of two entries for a color holds. -/
def Overrides.ofEntries (entries : List (Color × String)) : Overrides :=
  entries.reverse

/-- How colors are written. -/
structure ColorStyle where
  named : Bool
  overrides : Overrides

/-- A color without overrides. -/
def colorExpression (color : Color) (named : Bool) : String :=
  match if named then color.constantName? else none with
  | some name =>
    if color.isSolid then "Color." ++ name
    else "Color." ++ name ++ ".copy(alpha = " ++ alphaLiteral color.alpha ++ ")"
  | none => "Color(0x" ++ Color.hexText 8 color.argb ++ ")"

/-- A color in a style. -/
def ColorStyle.expression (style : ColorStyle) (color : Color) : String :=
  match style.overrides.lookup color with
  | some replacement => replacement
  | none => colorExpression color style.named

/-- The layout of calls: the blanks of one level and a comma after the last argument. -/
structure CallStyle where
  indent : String
  trailingComma : Bool

/-- Lines with a text before the first. -/
def labelled (label : String) : List String → List String
  | [] => []
  | line :: rest => (label ++ line) :: rest

/-- Lines with a text after the last. -/
def endedWith (ending : String) : List String → List String
  | [] => []
  | [line] => [line ++ ending]
  | line :: rest => line :: endedWith ending rest

/-- Lines one level deeper. -/
def CallStyle.nested (style : CallStyle) (lines : List String) : List String :=
  lines.map (style.indent ++ ·)

/-- The lines of arguments, with a comma after each but perhaps the last. -/
def CallStyle.arguments (style : CallStyle) : List (List String) → List String
  | [] => []
  | [last] => style.nested (endedWith (if style.trailingComma then "," else "") last)
  | argument :: rest => style.nested (endedWith "," argument) ++ style.arguments rest

/-- The lines of a call with its arguments on lines of their own. -/
def CallStyle.call (style : CallStyle) (name : String) (arguments : List (List String)) :
    List String :=
  (name ++ "(") :: style.arguments arguments ++ [")"]

/-- A point in generated code. -/
def pointExpression (p : Point) : String :=
  "Offset(" ++ floatLiteral p.x ++ ", " ++ floatLiteral p.y ++ ")"

/-- The stops of a gradient as an argument. -/
def stopsArgument (style : CallStyle) (colors : ColorStyle) (stops : List Stop) : List String :=
  labelled "colorStops = " (style.call "arrayOf" (stops.map fun stop =>
    [floatLiteral stop.offset ++ " to " ++ colors.expression stop.color]))

/-- The lines of a paint. -/
def paintLines (style : CallStyle) (colors : ColorStyle) : Paint → List String
  | .solid color => ["SolidColor(" ++ colors.expression color ++ ")"]
  | .linear start finish stops =>
    style.call "Brush.linearGradient" [stopsArgument style colors stops,
      ["start = " ++ pointExpression start], ["end = " ++ pointExpression finish]]
  | .radial center radius _ stops =>
    style.call "Brush.radialGradient" [stopsArgument style colors stops,
      ["center = " ++ pointExpression center], ["radius = " ++ floatLiteral radius]]

end VectorIcon.Kotlin
