import VectorIcon.Color.Argb

/-!
# Paint

What fills a path or draws its outline: one color, or a gradient with stops in document order.
-/

namespace VectorIcon.Icon

/-- A point of the drawing. -/
structure Point where
  x : Float
  y : Float
  deriving Repr, DecidableEq

/-- A color at a position of a gradient. -/
structure Stop where
  offset : Float
  color : Color
  deriving Repr, DecidableEq

/-- A paint. -/
inductive Paint
  | solid (color : Color)
  | linear (start finish : Point) (stops : List Stop)
  | radial (center : Point) (radius : Float) (focus : Option Point) (stops : List Stop)
  deriving Repr, DecidableEq

/-- The stops of a gradient; a single color has none. -/
def Paint.stops : Paint → List Stop
  | .solid _ => []
  | .linear _ _ stops => stops
  | .radial _ _ _ stops => stops

/-- The colors that a paint puts on the drawing. -/
def Paint.colors : Paint → List Color
  | .solid color => [color]
  | paint => paint.stops.map Stop.color

end VectorIcon.Icon
