import VectorIcon.Number.Binary
import VectorIcon.Affine.Matrix

/-!
# Translation, rotation and scale of a map

A group of an icon knows no matrix: it is scaled, then turned, then moved. `Params.ofMatrix` finds these
parts of a matrix and drops its shear. A mirrored matrix gets a negative vertical scale.
-/

namespace VectorIcon.Affine

/-- A scale, a turn in degrees and a move, done in this order. -/
structure Params (α : Type) where
  translationX : α
  translationY : α
  scaleX : α
  scaleY : α
  rotation : α
  deriving Repr, DecidableEq

namespace Params

variable {α : Type} [OfNat α 0] [OfNat α 1]

/-- The parameters of a map that moves nothing. -/
def identity : Params α := ⟨0, 0, 1, 1, 0⟩

/-- Nothing is moved. -/
def isIdentity [BEq α] (p : Params α) : Bool :=
  p.translationX == 0 && p.translationY == 0 && p.scaleX == 1 && p.scaleY == 1 && p.rotation == 0

/-- The parameters of a matrix, without its shear. -/
def ofMatrix [Mul α] [Sub α] [Neg α] [BEq α] [LT α] [DecidableLT α] [Measure α] (m : Matrix α) :
    Params α :=
  let scaleX := Measure.length m.a m.b
  let rotation := if scaleX == 0 then 0 else Measure.direction m.a m.b
  let length := Measure.length m.c m.d
  let scaleY := if m.a * m.d - m.b * m.c < 0 then -length else length
  { translationX := Measure.snap m.e
    translationY := Measure.snap m.f
    scaleX := Measure.snap scaleX
    scaleY := Measure.snap scaleY
    rotation := Measure.settle (Measure.snap rotation) }

end Params

/-! ## Measures of doubles -/

/-- Half the circumference of the unit circle. -/
def pi : Float := 3.141592653589793

/-- An angle in degrees as an angle in radians. -/
def radians (degrees : Float) : Float := degrees * (pi / 180.0)

/-- A double within `10 ^ -9` of a whole number becomes that number. -/
def snap (v : Float) : Float :=
  let nearest := Number.roundHalfAway v
  if (v - nearest).abs < 1e-9 then (if nearest == 0.0 then 0.0 else nearest) else v

instance : Measure Float where
  sine v := (radians v).sin
  cosine v := (radians v).cos
  tangent v := (radians v).tan
  direction x y := Float.atan2 y x * (180.0 / pi)
  length := Number.hypotenuse
  snap := snap
  settle v := if v ≤ -180.0 then v + 360.0 else v

end VectorIcon.Affine
