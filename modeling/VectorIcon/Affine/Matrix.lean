/-!
# Affine maps of the plane

A matrix sends `(x, y)` to `(a x + c y + e, b x + d y + f)`. The definitions hold for any number type,
so that what is computed on doubles can be stated of exact numbers as well.
-/

namespace VectorIcon.Affine

/-- What transforms ask of a number type beside its arithmetic. Angles are in degrees. -/
class Measure (α : Type) where
  /-- The sine of an angle. -/
  sine : α → α
  /-- The cosine of an angle. -/
  cosine : α → α
  /-- The tangent of an angle. -/
  tangent : α → α
  /-- The angle of the direction `(x, y)`. -/
  direction : α → α → α
  /-- The length of `(x, y)`. -/
  length : α → α → α
  /-- The number without the noise of earlier rounding. -/
  snap : α → α
  /-- The same angle above `-180` and up to `180`. -/
  settle : α → α

/-- The map `(x, y) ↦ (a x + c y + e, b x + d y + f)`. -/
structure Matrix (α : Type) where
  a : α
  b : α
  c : α
  d : α
  e : α
  f : α
  deriving Repr, DecidableEq

namespace Matrix

variable {α : Type}

/-- The image of a point. -/
def apply [Add α] [Mul α] (m : Matrix α) (p : α × α) : α × α :=
  (m.a * p.1 + m.c * p.2 + m.e, m.b * p.1 + m.d * p.2 + m.f)

/-- The map that first does `m` and then `n`. -/
def andThen [Add α] [Mul α] (m n : Matrix α) : Matrix α where
  a := m.a * n.a + m.b * n.c
  b := m.a * n.b + m.b * n.d
  c := m.c * n.a + m.d * n.c
  d := m.c * n.b + m.d * n.d
  e := m.e * n.a + m.f * n.c + n.e
  f := m.e * n.b + m.f * n.d + n.f

variable [OfNat α 0] [OfNat α 1]

/-- The map that moves nothing. -/
def identity : Matrix α := ⟨1, 0, 0, 1, 0, 0⟩

/-- The move by `(x, y)`. -/
def translation (x y : α) : Matrix α := ⟨1, 0, 0, 1, x, y⟩

/-- The stretching of the axes. -/
def scaling (x y : α) : Matrix α := ⟨x, 0, 0, y, 0, 0⟩

/-- The turn around the origin. -/
def rotation [Neg α] [Measure α] (angle : α) : Matrix α :=
  ⟨Measure.cosine angle, Measure.sine angle, -Measure.sine angle, Measure.cosine angle, 0, 0⟩

/-- The turn around a point. -/
def rotationAbout [Add α] [Mul α] [Neg α] [Measure α] (angle x y : α) : Matrix α :=
  ((translation (-x) (-y)).andThen (rotation angle)).andThen (translation x y)

/-- The shear along the horizontal axis. -/
def shearX [Measure α] (angle : α) : Matrix α := ⟨1, 0, Measure.tangent angle, 1, 0, 0⟩

/-- The shear along the vertical axis. -/
def shearY [Measure α] (angle : α) : Matrix α := ⟨1, Measure.tangent angle, 0, 1, 0, 0⟩

/-- The maps of a list done one after the other, the last one first. -/
def compose [Add α] [Mul α] (steps : List (Matrix α)) : Matrix α :=
  steps.foldl (fun m step => step.andThen m) identity

end Matrix

end VectorIcon.Affine
