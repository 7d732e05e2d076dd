import VectorIcon.Color.Notation
import VectorIcon.Svg.Definitions
import VectorIcon.Svg.Length
import VectorIcon.Svg.Notice
import VectorIcon.Svg.Style

/-!
# Gradients

Every gradient of a document that has an identifier and stops is defined under it, wherever it stands. A
gradient without stops of its own takes those of the gradient that it refers to, over at most eight
gradients.
-/

namespace VectorIcon.Svg

open Markup Icon

/-- The namespace of references in older documents. -/
def linkSpace : String := "http://www.w3.org/1999/xlink"

/-- The number of gradients that are asked for stops, the first one included. -/
def chainLength : Nat := 8

/-- The element is a gradient. -/
def isGradient (e : Element) : Bool :=
  e.name == "linearGradient" || e.name == "radialGradient"

/-- The color of a stop before its opacity. -/
def stopColor (e : Element) : Noted Color :=
  match property? e "stop-color" with
  | none => pure .black
  | some value =>
    if (referencedId? value).isSome then pure .black
    else
      match Color.parse value with
      | .ok (some color) => pure color
      | .ok none => pure .transparent
      | .error error => .warn .black (.invalidColor value error.message)

/-- The stop that an element describes. -/
def readStop (e : Element) : Noted Stop := do
  let offset := ((property? e "offset").bind readFraction?).elim 0 (Number.clamp 0 1)
  let color ← stopColor e
  match (property? e "stop-opacity").bind readOpacity? with
  | some opacity => return ⟨offset, color.withOpacity opacity⟩
  | none => return ⟨offset, color⟩

/-- The stops that stand in a gradient. -/
def ownStops (e : Element) : Noted (List Stop) :=
  (e.children.filter fun child => child.name == "stop").mapM readStop

/-- The identifier that a gradient refers to. -/
def gradientReference? (e : Element) : Option String :=
  ((e.attributeIn? linkSpace "href").or (e.attribute? "href")).map fun value =>
    String.ofList ((Text.trim value.toList).dropWhile (· == '#'))

/-- The stops of a gradient or of the gradients it refers to, of which the first with stops counts. -/
def resolveStops (gradients : List (String × Element)) : Nat → Element → Noted (List Stop)
  | 0, _ => pure []
  | steps + 1, e => do
    let stops ← ownStops e
    if !stops.isEmpty then return stops
    match (gradientReference? e).bind fun id => gradients.reverse.lookup id with
    | some next => resolveStops gradients steps next
    | none => return []

/-- A coordinate of a gradient. -/
def gradientCoordinate (e : Element) (name : String) (default : Float) : Float :=
  ((e.attribute? name).bind readCoordinate?).getD default

/-- The paint of a gradient with the given stops. -/
def gradientPaint (e : Element) (stops : List Stop) : Paint :=
  let coordinate := gradientCoordinate e
  if e.name = "linearGradient" then
    .linear ⟨coordinate "x1" 0, coordinate "y1" 0⟩ ⟨coordinate "x2" 100, coordinate "y2" 0⟩ stops
  else
    let cx := coordinate "cx" 50
    let cy := coordinate "cy" 50
    let fx := (e.attribute? "fx").map fun _ => coordinate "fx" 50
    let fy := (e.attribute? "fy").map fun _ => coordinate "fy" 50
    let focus := if fx.isNone && fy.isNone then none else some ⟨fx.getD cx, fy.getD cy⟩
    .radial ⟨cx, cy⟩ (coordinate "r" 50) focus stops

/-- The gradients of a document under their identifiers, as written. -/
def gradientElements (root : Element) : List (String × Element) :=
  (root.descendants.filter isGradient).filterMap fun e => (e.attribute? "id").map (·, e)

/-- The definitions with the gradients of a document. -/
def defineGradients (root : Element) (d : Definitions) : Noted Definitions :=
  let gradients := gradientElements root
  gradients.foldlM (fun d (id, e) => do
    let stops ← resolveStops gradients chainLength e
    return if stops.isEmpty then d else d.addGradient id (gradientPaint e stops)) d

end VectorIcon.Svg
