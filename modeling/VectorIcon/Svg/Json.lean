import VectorIcon.Icon.Json
import VectorIcon.Svg.Document

/-!
# Drawings as data values
-/

namespace VectorIcon

/-- The word of a family of elements. -/
def Category.word : Category → String
  | .text => "text"
  | .advanced => "advanced"
  | .filter => "filter"
  | .animation => "animation"
  | .embedded => "embedded"

/-- The word of what a reference points at. -/
def Target.word : Target → String
  | .gradient => "gradient"
  | .clipPath => "clipPath"

/-- A warning as a data value. -/
def Warning.toJson : Warning → Json
  | .unsupportedElement category tag =>
    .record [("kind", .text "unsupportedElement"), ("category", .text category.word),
      ("tag", .text tag)]
  | .invalidGeometry element =>
    .record [("kind", .text "invalidShapeGeometry"), ("element", .text element)]
  | .unknownReference target id =>
    .record [("kind", .text "unregisteredReference"), ("reference", .text target.word),
      ("id", .text id)]
  | .skippedTransform function =>
    .record [("kind", .text "unparseableTransform"), ("function", .text function)]
  | .invalidColor value reason =>
    .record [("kind", .text "invalidColor"), ("value", .text value), ("reason", .text reason)]
  | .droppedPath message =>
    .record [("kind", .text "malformedPathData"), ("message", .text message)]

/-- A drawing as a data value. -/
def Svg.Drawing.toJson (d : Svg.Drawing) : Json :=
  .record [("imageVector", d.icon.toJson), ("warnings", .list (d.warnings.map Warning.toJson))]

end VectorIcon
