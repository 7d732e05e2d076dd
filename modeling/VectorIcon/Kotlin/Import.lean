import VectorIcon.Icon.Basic
import VectorIcon.Text.Pieces

/-!
# Imports of generated code

`required` gives what the code of an icon names, in order: some names always, the others when a part of
the icon needs them. `formatImports` writes the import lines of any names.
-/

namespace VectorIcon.Kotlin

open Icon
open Text (sortedSet)

/-- A class or function of the graphics library. -/
inductive Symbol
  | offset
  | brush
  | color
  | pathFillType
  | solidColor
  | strokeCap
  | strokeJoin
  | imageVector
  | pathNode
  | dp
  deriving Repr, DecidableEq

/-- The symbols in the order of their full names. -/
def Symbol.all : List Symbol :=
  [.offset, .brush, .color, .pathFillType, .solidColor, .strokeCap, .strokeJoin, .imageVector,
    .pathNode, .dp]

/-- The full name of a symbol. -/
def Symbol.path : Symbol → String
  | .offset => "androidx.compose.ui.geometry.Offset"
  | .brush => "androidx.compose.ui.graphics.Brush"
  | .color => "androidx.compose.ui.graphics.Color"
  | .pathFillType => "androidx.compose.ui.graphics.PathFillType"
  | .solidColor => "androidx.compose.ui.graphics.SolidColor"
  | .strokeCap => "androidx.compose.ui.graphics.StrokeCap"
  | .strokeJoin => "androidx.compose.ui.graphics.StrokeJoin"
  | .imageVector => "androidx.compose.ui.graphics.vector.ImageVector"
  | .pathNode => "androidx.compose.ui.graphics.vector.PathNode"
  | .dp => "androidx.compose.ui.unit.dp"

/-- The paint is a gradient. -/
def isGradient : Paint → Bool
  | .solid _ => false
  | _ => true

/-- The paints of a path. -/
def paints (o : Outline) : List Paint :=
  o.fill.toList ++ o.stroke.toList

/-- The code of an icon names a symbol. -/
def Symbol.isUsed (icon : Icon) : Symbol → Bool
  | .imageVector | .dp => true
  | .color => icon.tint.isSome || icon.outlines.any fun o => !(paints o).isEmpty
  | .solidColor => icon.outlines.any fun o => (paints o).any (!isGradient ·)
  | .brush | .offset => icon.outlines.any fun o => (paints o).any isGradient
  | .pathNode => icon.placements.any fun p => !p.clip.isEmpty
  | .strokeCap => icon.outlines.any fun o => o.cap != .butt
  | .strokeJoin => icon.outlines.any fun o => o.join != .miter
  | .pathFillType => icon.outlines.any fun o => o.fillRule != .nonZero

/-- The full names that the code of an icon needs, in order. -/
def required (icon : Icon) : List String :=
  (Symbol.all.filter (Symbol.isUsed icon)).map Symbol.path

/-- The first three segments of a name; all of a shorter one. -/
def groupKey (name : String) : String :=
  let segments := name.toList.splitOn '.'
  if 3 ≤ segments.length then
    ".".intercalate ((segments.take 3).map String.ofList)
  else name

/-- The names of one group each, the groups in the order of their keys. -/
def grouped (names : List String) : List (List String) :=
  (sortedSet (names.map groupKey)).map fun key => names.filter fun name => groupKey name == key

/-- The import lines of names that are sorted. -/
def importLines (names : List String) : String :=
  "\n".intercalate (names.map ("import " ++ ·))

/-- The import lines of names, with a blank line between groups when these are asked for. -/
def formatImports (names : List String) (byGroup : Bool) : String :=
  let names := sortedSet names
  if byGroup then "\n\n".intercalate ((grouped names).map importLines) else importLines names

end VectorIcon.Kotlin
