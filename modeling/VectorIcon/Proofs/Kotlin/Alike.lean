import Mathlib.Data.List.Forall2
import VectorIcon.Icon.Basic
import VectorIcon.Kotlin.Literal

/-!
# Icons that code shows alike

Code shows a number by its literal. It has no place for the name of a path, for the part of a path that
is drawn, or for the focus of a radial gradient. `SameIcon` says that two icons agree in all the rest,
part by part and in the same tree.
-/

namespace VectorIcon.Kotlin

open Icon

/-- The numbers have the same literal. -/
def Alike (v w : Float) : Prop :=
  floatLiteral v = floatLiteral w

structure SamePoint (p q : Point) : Prop where
  x : Alike p.x q.x
  y : Alike p.y q.y

structure SameStop (s t : Stop) : Prop where
  offset : Alike s.offset t.offset
  color : s.color = t.color

/-- The paints agree, but for the focus of a radial gradient. -/
inductive SamePaint : Paint → Paint → Prop
  | solid (color) : SamePaint (.solid color) (.solid color)
  | linear {start start' finish finish' stops stops'} :
    SamePoint start start' → SamePoint finish finish' → List.Forall₂ SameStop stops stops' →
    SamePaint (.linear start finish stops) (.linear start' finish' stops')
  | radial {center center' radius radius' focus focus' stops stops'} :
    SamePoint center center' → Alike radius radius' → List.Forall₂ SameStop stops stops' →
    SamePaint (.radial center radius focus stops) (.radial center' radius' focus' stops')

inductive SameArgument : Path.Argument Float → Path.Argument Float → Prop
  | number {v w} : Alike v w → SameArgument (.number v) (.number w)
  | flag (b) : SameArgument (.flag b) (.flag b)

/-- The commands have the same letter, and their arguments agree in order. -/
structure SameCommand (c d : Path.Command Float) : Prop where
  letter : c.letter = d.letter
  arguments : List.Forall₂ SameArgument c.arguments d.arguments

/-- The paths agree, but for their names and the parts of them that are drawn. -/
structure SameOutline (o o' : Outline) : Prop where
  commands : List.Forall₂ SameCommand o.commands o'.commands
  fill : Option.Rel SamePaint o.fill o'.fill
  stroke : Option.Rel SamePaint o.stroke o'.stroke
  fillAlpha : Alike o.fillAlpha o'.fillAlpha
  strokeAlpha : Alike o.strokeAlpha o'.strokeAlpha
  lineWidth : Alike o.lineWidth o'.lineWidth
  cap : o.cap = o'.cap
  join : o.join = o'.join
  miterLimit : Alike o.miterLimit o'.miterLimit
  fillRule : o.fillRule = o'.fillRule

structure SamePlacement (p q : Placement) : Prop where
  name : p.name = q.name
  rotation : Alike p.rotation q.rotation
  pivotX : Alike p.pivotX q.pivotX
  pivotY : Alike p.pivotY q.pivotY
  scaleX : Alike p.scaleX q.scaleX
  scaleY : Alike p.scaleY q.scaleY
  translationX : Alike p.translationX q.translationX
  translationY : Alike p.translationY q.translationY
  clip : List.Forall₂ SameCommand p.clip q.clip

/-- The parts are paths that agree, or groups that agree and hold parts that do, in the same order. -/
inductive SameNode : Node → Node → Prop
  | path {o o'} : SameOutline o o' → SameNode (.path o) (.path o')
  | group {p q children children'} :
    SamePlacement p q → List.Forall₂ SameNode children children' →
    SameNode (.group p children) (.group q children')

/-- The icons agree in all that code has a place for. -/
structure SameIcon (a b : Icon) : Prop where
  name : a.name = b.name
  width : Alike a.width b.width
  height : Alike a.height b.height
  viewportWidth : Alike a.viewportWidth b.viewportWidth
  viewportHeight : Alike a.viewportHeight b.viewportHeight
  tint : a.tint = b.tint
  autoMirror : a.autoMirror = b.autoMirror
  nodes : List.Forall₂ SameNode a.nodes b.nodes

/-! ## Lists -/

/-- Lists whose members are shown in one way agree in order. -/
theorem forall₂_of_map_eq {α β : Type} {f : α → β} {r : α → α → Prop} {l l' : List α}
    (hf : ∀ a b, f a = f b → r a b) (h : l.map f = l'.map f) : List.Forall₂ r l l' := by
  induction l generalizing l' with
  | nil =>
    rw [List.map_eq_nil_iff.1 h.symm]
    exact .nil
  | cons a l ih =>
    cases l' with
    | nil => cases h
    | cons b l' =>
      rw [List.map_cons, List.map_cons] at h
      obtain ⟨hab, hrest⟩ := List.cons.inj h
      exact .cons (hf a b hab) (ih hrest)

end VectorIcon.Kotlin
