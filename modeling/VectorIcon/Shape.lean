import VectorIcon.Number.Numeral
import VectorIcon.Path.Command

/-!
# Basic shapes as paths

Each shape gives the commands of its outline, or none at all when there is nothing to draw: a size or a
radius that is not positive, too few points. Outlines run clockwise. The definitions hold for any number
type.
-/

namespace VectorIcon.Shape

open VectorIcon.Path

variable {α : Type} [OfNat α 0] [Add α] [Sub α] [LT α] [DecidableLT α]

/-- A quarter of an ellipse that ends at `(x, y)`. -/
def quarter (radiusX radiusY x y : α) : Command α :=
  .arcTo .absolute radiusX radiusY 0 false true x y

/-- The radii of a rectangle's corners: a missing or negative one takes the value of the other. -/
def cornerRadii [LE α] [DecidableLE α] (rx ry : Option α) : α × α :=
  match rx.filter (fun r => decide (0 ≤ r)), ry.filter (fun r => decide (0 ≤ r)) with
  | some rx, some ry => (rx, ry)
  | some r, none => (r, r)
  | none, some r => (r, r)
  | none, none => (0, 0)

/-- A length that is at most half a side. -/
def atMostHalf [OfNat α 2] [Div α] (side r : α) : α :=
  if side / 2 < r then side / 2 else r

/-- The outline of a rectangle from its upper left corner, with round corners when both radii are
positive. -/
def rectangle [OfNat α 2] [Div α] [LE α] [DecidableLE α] (x y width height : α)
    (rx ry : Option α) : List (Command α) :=
  if 0 < width ∧ 0 < height then
    let (rx, ry) := cornerRadii rx ry
    let rx := atMostHalf width rx
    let ry := atMostHalf height ry
    let right := x + width
    let bottom := y + height
    if rx ≤ 0 ∨ ry ≤ 0 then
      [.moveTo .absolute x y, .lineTo .absolute right y, .lineTo .absolute right bottom,
        .lineTo .absolute x bottom, .close]
    else
      [.moveTo .absolute (x + rx) y,
        .lineTo .absolute (right - rx) y, quarter rx ry right (y + ry),
        .lineTo .absolute right (bottom - ry), quarter rx ry (right - rx) bottom,
        .lineTo .absolute (x + rx) bottom, quarter rx ry x (bottom - ry),
        .lineTo .absolute x (y + ry), quarter rx ry (x + rx) y,
        .close]
  else []

/-- The outline of an ellipse from its leftmost point. -/
def ellipse (cx cy rx ry : α) : List (Command α) :=
  if 0 < rx ∧ 0 < ry then
    [.moveTo .absolute (cx - rx) cy, quarter rx ry cx (cy - ry), quarter rx ry (cx + rx) cy,
      quarter rx ry cx (cy + ry), quarter rx ry (cx - rx) cy, .close]
  else []

/-- The outline of a circle. -/
def circle (cx cy r : α) : List (Command α) :=
  ellipse cx cy r r

omit [OfNat α 0] [Add α] [Sub α] [LT α] [DecidableLT α]

/-- The line between two points. -/
def line (x₁ y₁ x₂ y₂ : α) : List (Command α) :=
  [.moveTo .absolute x₁ y₁, .lineTo .absolute x₂ y₂]

/-- The lines through a list of points. -/
def lines : List (α × α) → List (Command α)
  | [] => []
  | (x, y) :: rest => .moveTo .absolute x y :: rest.map fun p => .lineTo .absolute p.1 p.2

/-- The open line through at least two points. -/
def polyline (points : List (α × α)) : List (Command α) :=
  if points.length < 2 then [] else lines points

/-- The closed line through at least three points. -/
def polygon (points : List (α × α)) : List (Command α) :=
  if points.length < 3 then [] else lines points ++ [.close]

/-- The values before the first text that has none. -/
def readWhile (read : List Char → Option α) : List (List Char) → List α
  | [] => []
  | s :: rest =>
    match read s with
    | some v => v :: readWhile read rest
    | none => []

/-- The values two by two; a last single one is left out. -/
def pairs : List α → List (α × α)
  | x :: y :: rest => (x, y) :: pairs rest
  | _ => []

/-- The points of a text up to its first word that is no number. -/
def parsePoints (text : String) : List (Float × Float) :=
  pairs (readWhile Number.read? (Text.fields (fun c => Text.isBlank c || c == ',') text.toList))

end VectorIcon.Shape
