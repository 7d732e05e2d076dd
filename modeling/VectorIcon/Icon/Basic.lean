import VectorIcon.Number.Layout
import VectorIcon.Path.Command
import VectorIcon.Affine.Params
import VectorIcon.Icon.Paint
import VectorIcon.Icon.Stroke

/-!
# Icons

An icon is a tree: paths at the leaves, and groups that move or clip what they hold. `Icon.create` checks
that an icon has a size.
-/

namespace VectorIcon

namespace Icon

/-- A path with its paint and its line. -/
structure Outline where
  name : Option String := none
  commands : List (Path.Command Float) := []
  fill : Option Paint := none
  stroke : Option Paint := none
  fillAlpha : Float := 1
  strokeAlpha : Float := 1
  lineWidth : Float := 0
  cap : Cap := .butt
  join : Join := .miter
  miterLimit : Float := 4
  fillRule : FillRule := .nonZero
  trimStart : Float := 0
  trimEnd : Float := 1
  trimOffset : Float := 0
  deriving Repr, DecidableEq

/-- What a group does to its children. -/
structure Placement where
  name : Option String := none
  rotation : Float := 0
  pivotX : Float := 0
  pivotY : Float := 0
  scaleX : Float := 1
  scaleY : Float := 1
  translationX : Float := 0
  translationY : Float := 0
  clip : List (Path.Command Float) := []
  deriving Repr, DecidableEq

/-- A part of an icon. -/
inductive Node
  | path (outline : Outline)
  | group (placement : Placement) (children : List Node)
  deriving Repr

/-- A paint or a line differs from what a path has without being told. -/
def Outline.isStyled (o : Outline) : Bool :=
  o.fill.isSome || o.stroke.isSome || o.fillAlpha != 1 || o.strokeAlpha != 1 || o.lineWidth != 0
    || o.cap != .butt || o.join != .miter || o.miterLimit != 4 || o.fillRule != .nonZero

/-- A group moves its children. -/
def Placement.isMoved (p : Placement) : Bool :=
  p.rotation != 0 || p.pivotX != 0 || p.pivotY != 0 || p.scaleX != 1 || p.scaleY != 1
    || p.translationX != 0 || p.translationY != 0

/-- A placement with the given parameters of a map. -/
def Placement.withParams (placement : Placement) (p : Affine.Params Float) : Placement :=
  { placement with
    rotation := p.rotation
    scaleX := p.scaleX
    scaleY := p.scaleY
    translationX := p.translationX
    translationY := p.translationY }

mutual

/-- The paths of a part, from left to right. -/
def Node.outlines : Node → List Outline
  | .path outline => [outline]
  | .group _ children => Node.outlinesOf children

/-- The paths of a list of parts. -/
def Node.outlinesOf : List Node → List Outline
  | [] => []
  | node :: rest => node.outlines ++ Node.outlinesOf rest

end

mutual

/-- The groups of a part, each before the groups in it. -/
def Node.placements : Node → List Placement
  | .path _ => []
  | .group placement children => placement :: Node.placementsOf children

/-- The groups of a list of parts. -/
def Node.placementsOf : List Node → List Placement
  | [] => []
  | node :: rest => node.placements ++ Node.placementsOf rest

end

end Icon

/-- An icon: its name, its size, the area that it draws on, and its parts. -/
structure Icon where
  name : String
  width : Float
  height : Float
  viewportWidth : Float
  viewportHeight : Float
  nodes : List Icon.Node
  autoMirror : Bool
  tint : Option Color

namespace Icon

/-- The size that is not positive. -/
structure SizeError where
  field : String
  value : Float

/-- The message of a size error. -/
def SizeError.message (e : SizeError) : String :=
  "Invalid image vector dimensions: " ++ e.field ++ " must be > 0 (got "
    ++ Number.display e.value ++ ")"

/-- A size that an icon can have. -/
def isSize (v : Float) : Bool :=
  Number.isFinite v && 0 < v

/-- An icon without parts, or the first of its sizes that is not finite and positive. -/
def create (name : String) (width height viewportWidth viewportHeight : Float) :
    Except SizeError Icon :=
  let sizes := [("defaultWidth", width), ("defaultHeight", height),
    ("viewportWidth", viewportWidth), ("viewportHeight", viewportHeight)]
  match sizes.find? fun size => !isSize size.2 with
  | some (field, value) => .error ⟨field, value⟩
  | none => .ok
    { name, width, height, viewportWidth, viewportHeight, nodes := [], autoMirror := false
      tint := none }

/-- The paths of an icon, from left to right. -/
def outlines (icon : Icon) : List Outline :=
  Node.outlinesOf icon.nodes

/-- The groups of an icon, each before the groups in it. -/
def placements (icon : Icon) : List Placement :=
  Node.placementsOf icon.nodes

/-- The number of paths. -/
def pathCount (icon : Icon) : Nat :=
  icon.outlines.length

end Icon

end VectorIcon
