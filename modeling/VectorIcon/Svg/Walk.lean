import VectorIcon.Affine.FunctionList
import VectorIcon.Icon.Basic
import VectorIcon.Svg.Clip
import VectorIcon.Svg.Gradient

/-!
# From elements to the parts of an icon

The walk keeps document order. A path or shape becomes one path; a transform or a clip of its own puts
it into a group. A group element becomes a group, unless nothing in it is drawn, or it does nothing to a
single part.
-/

namespace VectorIcon.Svg

open Markup Icon

/-- The paint that a property asks for: a defined gradient, a color, or none. -/
def readPaint (d : Definitions) (value : String) : Noted (Option Paint) :=
  match referencedId? value with
  | some id =>
    match d.gradient? id with
    | some paint => pure (some paint)
    | none => .warn (some (.solid .black)) (.unknownReference .gradient id)
  | none =>
    match Color.parse value with
    | .ok color => pure (color.map .solid)
    | .error error => .warn none (.invalidColor value error.message)

/-- A path with the paint and the line that the properties of an element ask for. -/
def styled (d : Definitions) (e : Element) (commands : List (Path.Command Float)) :
    Noted Outline := do
  let fill ← match property? e "fill" with
    | some value => readPaint d value
    | none => pure (some (.solid .black))
  let stroke ← match property? e "stroke" with
    | some value => readPaint d value
    | none => pure none
  let opacity := fun name => ((property? e name).bind readOpacity?).getD 1
  let width := ((property? e "stroke-width").bind readLength?).getD 0
  let limit := ((property? e "stroke-miterlimit").bind fun value =>
    Number.read? value.toList).filter fun v => decide (1 ≤ v)
  return {
    name := some ((id? e).getD e.name)
    commands, fill, stroke
    fillAlpha := opacity "fill-opacity" * opacity "opacity"
    strokeAlpha := opacity "stroke-opacity" * opacity "opacity"
    lineWidth := if 0 < width then width else 0
    cap := ((property? e "stroke-linecap").bind Cap.ofWord?).getD .butt
    join := ((property? e "stroke-linejoin").bind Join.ofWord?).getD .miter
    miterLimit := limit.getD 4
    fillRule := ((property? e "fill-rule").bind FillRule.ofWord?).getD .nonZero }

/-- The parameters of an element's transform. -/
def transformParams (e : Element) : Noted (Affine.Params Float) :=
  match e.attribute? "transform" with
  | some value =>
    let list := Affine.FunctionList.parse value
    ⟨list.params, list.skipped.map fun text => .warning (.skippedTransform text)⟩
  | none => pure .identity

/-- The clip of an element, which may have no commands. -/
def clipOf (d : Definitions) (e : Element) : Noted (Option (List (Path.Command Float))) :=
  match (property? e "clip-path").bind referencedId? with
  | some id =>
    match d.clip? id with
    | some commands => pure (some commands)
    | none => .warn none (.unknownReference .clipPath id)
  | none => pure none

/-- The placement of an element, and whether it does nothing. -/
def placement (d : Definitions) (e : Element) (name : String) : Noted (Placement × Bool) := do
  let params ← transformParams e
  let clip ← clipOf d e
  let placement := ({ name := some name, clip := clip.getD [] } : Placement).withParams params
  return (placement, params.isIdentity && clip.isNone)

/-- The part of an icon for an element that draws. -/
def leaf (d : Definitions) (e : Element) (commands : List (Path.Command Float)) :
    Noted (List Node) := do
  if commands.isEmpty then return []
  let outline ← styled d e commands
  let (placement, isNothing) ← placement d e "group"
  if isNothing then return [.path outline] else return [.group placement [.path outline]]

/-- The parts of an icon for a group element that holds the given parts. -/
def grouped (d : Definitions) (e : Element) (children : List Node) : Noted (List Node) := do
  if children.isEmpty then return []
  let id := id? e
  let (placement, isNothing) ← placement d e (id.getD "group")
  if isNothing && id.isNone && children.length ≤ 1 then return children
  return [.group placement children]

mutual

/-- The parts of an icon for an element. -/
def walk (d : Definitions) : Element → Noted (List Node)
  | ⟨name, attributes, children⟩ =>
    let e : Element := ⟨name, attributes, children⟩
    if isHidden e then pure []
    else
      match Role.ofTag name with
      | .path => do leaf d e (← pathCommands e)
      | .shape => do leaf d e (← checkedShapeCommands e)
      | .group => do grouped d e (← walkAll d children)
      | .silent => pure []
      | .container => walkAll d children

/-- The parts of an icon for a list of elements. -/
def walkAll (d : Definitions) : List Element → Noted (List Node)
  | [] => pure []
  | e :: rest => do
    let first ← walk d e
    let others ← walkAll d rest
    return first ++ others

end

end VectorIcon.Svg
