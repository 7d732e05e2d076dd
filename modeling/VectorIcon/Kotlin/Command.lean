import VectorIcon.Path.Command
import VectorIcon.Kotlin.Literal

/-!
# Drawing commands in generated code

A command is written in two ways: as a call on the builder of a path, and as a value in the list of a
clip.
-/

namespace VectorIcon.Kotlin

open VectorIcon.Path

/-- The call of the builder for a letter. -/
def callName : Letter → String
  | .draw .absolute .moveTo => "moveTo"
  | .draw .relative .moveTo => "moveToRelative"
  | .draw .absolute .lineTo => "lineTo"
  | .draw .relative .lineTo => "lineToRelative"
  | .draw .absolute .horizontalTo => "horizontalLineTo"
  | .draw .relative .horizontalTo => "horizontalLineToRelative"
  | .draw .absolute .verticalTo => "verticalLineTo"
  | .draw .relative .verticalTo => "verticalLineToRelative"
  | .draw .absolute .curveTo => "curveTo"
  | .draw .relative .curveTo => "curveToRelative"
  | .draw .absolute .quadTo => "quadTo"
  | .draw .relative .quadTo => "quadToRelative"
  | .draw .absolute .smoothCurveTo => "reflectiveCurveTo"
  | .draw .relative .smoothCurveTo => "reflectiveCurveToRelative"
  | .draw .absolute .smoothQuadTo => "reflectiveQuadTo"
  | .draw .relative .smoothQuadTo => "reflectiveQuadToRelative"
  | .draw .absolute .arcTo => "arcTo"
  | .draw .relative .arcTo => "arcToRelative"
  | .close => "close"

/-- The constructor of a clip's command for a letter. -/
def nodeName : Letter → String
  | .draw .absolute .moveTo => "PathNode.MoveTo"
  | .draw .relative .moveTo => "PathNode.RelativeMoveTo"
  | .draw .absolute .lineTo => "PathNode.LineTo"
  | .draw .relative .lineTo => "PathNode.RelativeLineTo"
  | .draw .absolute .horizontalTo => "PathNode.HorizontalTo"
  | .draw .relative .horizontalTo => "PathNode.RelativeHorizontalTo"
  | .draw .absolute .verticalTo => "PathNode.VerticalTo"
  | .draw .relative .verticalTo => "PathNode.RelativeVerticalTo"
  | .draw .absolute .curveTo => "PathNode.CurveTo"
  | .draw .relative .curveTo => "PathNode.RelativeCurveTo"
  | .draw .absolute .quadTo => "PathNode.QuadTo"
  | .draw .relative .quadTo => "PathNode.RelativeQuadTo"
  | .draw .absolute .smoothCurveTo => "PathNode.ReflectiveCurveTo"
  | .draw .relative .smoothCurveTo => "PathNode.RelativeReflectiveCurveTo"
  | .draw .absolute .smoothQuadTo => "PathNode.ReflectiveQuadTo"
  | .draw .relative .smoothQuadTo => "PathNode.RelativeReflectiveQuadTo"
  | .draw .absolute .arcTo => "PathNode.ArcTo"
  | .draw .relative .arcTo => "PathNode.RelativeArcTo"
  | .close => "PathNode.Close"

/-- An argument in generated code. -/
def argumentText : Argument Float → String
  | .number v => floatLiteral v
  | .flag true => "true"
  | .flag false => "false"

/-- The arguments of a command in parentheses. -/
def argumentList (c : Command Float) : String :=
  "(" ++ ", ".intercalate (c.arguments.map argumentText) ++ ")"

/-- A command as a call of the builder. -/
def builderCall (c : Command Float) : String :=
  callName c.letter ++ argumentList c

/-- A command as a value; closing takes no arguments. -/
def pathNode (c : Command Float) : String :=
  match c.letter with
  | .close => nodeName .close
  | letter => nodeName letter ++ argumentList c

end VectorIcon.Kotlin
