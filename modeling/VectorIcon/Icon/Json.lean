import VectorIcon.Json.Basic
import VectorIcon.Icon.Basic

/-!
# Icons as data values
-/

namespace VectorIcon

/-- A command as a data value. -/
def Path.Command.toJson (c : Path.Command Float) : Json :=
  let named (name : String) (fields : List (String × Json)) : Json :=
    .record (("type", .text name) :: fields)
  let numbers (frame : Path.Frame) (fields : List (String × Float)) : List (String × Json) :=
    let lead := match frame with
      | .absolute => ""
      | .relative => "d"
    fields.map fun (name, value) => (lead ++ name, .real value)
  let typeName (frame : Path.Frame) (absolute relative : String) : String :=
    match frame with
    | .absolute => absolute
    | .relative => relative
  match c with
  | .moveTo f x y => named (typeName f "moveTo" "relativeMoveTo") (numbers f [("x", x), ("y", y)])
  | .lineTo f x y => named (typeName f "lineTo" "relativeLineTo") (numbers f [("x", x), ("y", y)])
  | .horizontalTo f x =>
    named (typeName f "horizontalLineTo" "relativeHorizontalLineTo") (numbers f [("x", x)])
  | .verticalTo f y =>
    named (typeName f "verticalLineTo" "relativeVerticalLineTo") (numbers f [("y", y)])
  | .curveTo f x₁ y₁ x₂ y₂ x₃ y₃ =>
    named (typeName f "curveTo" "relativeCurveTo") (numbers f
      [("x1", x₁), ("y1", y₁), ("x2", x₂), ("y2", y₂), ("x3", x₃), ("y3", y₃)])
  | .quadTo f x₁ y₁ x₂ y₂ =>
    named (typeName f "quadTo" "relativeQuadTo")
      (numbers f [("x1", x₁), ("y1", y₁), ("x2", x₂), ("y2", y₂)])
  | .smoothCurveTo f x₁ y₁ x₂ y₂ =>
    named (typeName f "reflectiveCurveTo" "relativeReflectiveCurveTo")
      (numbers f [("x1", x₁), ("y1", y₁), ("x2", x₂), ("y2", y₂)])
  | .smoothQuadTo f x y =>
    named (typeName f "reflectiveQuadTo" "relativeReflectiveQuadTo")
      (numbers f [("x", x), ("y", y)])
  | .arcTo f rx ry angle large sweep x y =>
    named (typeName f "arcTo" "relativeArcTo") ([("horizontal_ellipse_radius", .real rx),
      ("vertical_ellipse_radius", .real ry), ("theta", .real angle),
      ("is_more_than_half", .boolean large), ("is_positive_arc", .boolean sweep)] ++
      numbers f [("x1", x), ("y1", y)])
  | .close => named "close" []

/-- A color as a data value. -/
def Color.toJson (c : Color) : Json :=
  .integer c.argb.toNat

namespace Icon

/-- An optional value as a data value. -/
def optional {α : Type} (encode : α → Json) (value : Option α) : Json :=
  value.elim .null encode

/-- A point as a data value. -/
def Point.toJson (p : Point) : Json :=
  .list [.real p.x, .real p.y]

/-- A stop as a data value. -/
def Stop.toJson (s : Stop) : Json :=
  .record [("offset", .real s.offset), ("color", s.color.toJson)]

/-- A paint as a data value. -/
def Paint.toJson : Paint → Json
  | .solid color => .record [("solidColor", color.toJson)]
  | .linear start finish stops =>
    .record [("linearGradient", .record [("start", start.toJson), ("end", finish.toJson),
      ("colorStops", .list (stops.map Stop.toJson))])]
  | .radial center radius focus stops =>
    .record [("radialGradient", .record [("center", center.toJson), ("radius", .real radius),
      ("focal", optional Point.toJson focus), ("colorStops", .list (stops.map Stop.toJson))])]

/-- The word of a line end. -/
def Cap.label : Cap → String
  | .butt => "butt"
  | .round => "round"
  | .square => "square"

/-- The word of a line corner. -/
def Join.label : Join → String
  | .miter => "miter"
  | .round => "round"
  | .bevel => "bevel"

/-- The word of a fill rule. -/
def FillRule.label : FillRule → String
  | .nonZero => "nonZero"
  | .evenOdd => "evenOdd"

/-- A list of commands as a data value. -/
def commandsToJson (commands : List (Path.Command Float)) : Json :=
  .list (commands.map Path.Command.toJson)

/-- A path as a data value. -/
def Outline.toJson (o : Outline) : Json :=
  .record [("kind", .text "path"),
    ("name", optional .text o.name),
    ("commands", commandsToJson o.commands),
    ("fill", optional Paint.toJson o.fill),
    ("stroke", optional Paint.toJson o.stroke),
    ("fillAlpha", .real o.fillAlpha),
    ("strokeAlpha", .real o.strokeAlpha),
    ("strokeLineWidth", .real o.lineWidth),
    ("strokeLineCap", .text o.cap.label),
    ("strokeLineJoin", .text o.join.label),
    ("strokeLineMiter", .real o.miterLimit),
    ("pathFillType", .text o.fillRule.label),
    ("trimPathStart", .real o.trimStart),
    ("trimPathEnd", .real o.trimEnd),
    ("trimPathOffset", .real o.trimOffset)]

/-- A group with its parts as a data value. -/
def Placement.toJson (p : Placement) (children : List Json) : Json :=
  .record [("kind", .text "group"),
    ("name", optional .text p.name),
    ("children", .list children),
    ("rotation", .real p.rotation),
    ("pivotX", .real p.pivotX),
    ("pivotY", .real p.pivotY),
    ("scaleX", .real p.scaleX),
    ("scaleY", .real p.scaleY),
    ("translationX", .real p.translationX),
    ("translationY", .real p.translationY),
    ("clipPathData", commandsToJson p.clip)]

mutual

/-- A part of an icon as a data value. -/
def Node.toJson : Node → Json
  | .path outline => outline.toJson
  | .group placement children => placement.toJson (Node.listToJson children)

/-- The parts of an icon as data values. -/
def Node.listToJson : List Node → List Json
  | [] => []
  | node :: rest => node.toJson :: Node.listToJson rest

end

/-- An icon as a data value. -/
def toJson (icon : Icon) : Json :=
  .record [("name", .text icon.name),
    ("defaultWidth", .real icon.width),
    ("defaultHeight", .real icon.height),
    ("viewportWidth", .real icon.viewportWidth),
    ("viewportHeight", .real icon.viewportHeight),
    ("nodes", .list (Node.listToJson icon.nodes)),
    ("autoMirror", .boolean icon.autoMirror),
    ("tintColor", optional Color.toJson icon.tint)]

end Icon

end VectorIcon
