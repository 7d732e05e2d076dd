import VectorIcon.Path.Reader
import VectorIcon.Shape
import VectorIcon.Svg.Length
import VectorIcon.Svg.Notice
import VectorIcon.Svg.Style

/-!
# Elements that draw

The commands of paths and basic shapes, and what the walk over a document does with each tag.
-/

namespace VectorIcon.Svg

open Markup

/-- What an element is to the walk over a document. -/
inductive Role
  | path
  | shape
  | group
  | silent
  | container
  deriving Repr, DecidableEq

/-- The tags of basic shapes. -/
def shapeTags : List String :=
  ["rect", "circle", "ellipse", "line", "polygon", "polyline"]

/-- The tags of elements that draw nothing where they stand. -/
def silentTags : List String :=
  ["defs", "linearGradient", "radialGradient", "clipPath", "stop", "title", "desc", "metadata",
    "style", "script"]

/-- The role of a tag; what cannot be drawn is silent, and what is unknown holds other elements. -/
def Role.ofTag (tag : String) : Role :=
  if tag = "path" then .path
  else if shapeTags.contains tag then .shape
  else if tag = "g" then .group
  else if silentTags.contains tag || (Category.ofTag? tag).isSome then .silent
  else .container

/-- The commands of a path element; a fault in its data leaves none. -/
def pathCommands (e : Element) : Noted (List (Path.Command Float)) :=
  match Path.parse ((e.attribute? "d").getD "") with
  | .ok commands => pure commands
  | .error error => .fail [] error

/-- The commands of a basic shape. -/
def shapeCommands (e : Element) : List (Path.Command Float) :=
  let length? := fun name => (e.attribute? name).bind readLength?
  let length := fun name => (length? name).getD 0
  let points := Shape.parsePoints ((e.attribute? "points").getD "")
  match e.name with
  | "rect" =>
    Shape.rectangle (length "x") (length "y") (length "width") (length "height") (length? "rx")
      (length? "ry")
  | "circle" => Shape.circle (length "cx") (length "cy") (length "r")
  | "ellipse" => Shape.ellipse (length "cx") (length "cy") (length "rx") (length "ry")
  | "line" => Shape.line (length "x1") (length "y1") (length "x2") (length "y2")
  | "polygon" => Shape.polygon points
  | "polyline" => Shape.polyline points
  | _ => []

/-- The commands of a basic shape, with a warning when there are none. -/
def checkedShapeCommands (e : Element) : Noted (List (Path.Command Float)) :=
  let commands := shapeCommands e
  if commands.isEmpty then .warn [] (.invalidGeometry e.name) else pure commands

end VectorIcon.Svg
