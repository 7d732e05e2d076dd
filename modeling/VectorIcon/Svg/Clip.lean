import VectorIcon.Svg.Definitions
import VectorIcon.Svg.Drawable

/-!
# Clip paths

A clip path with an identifier becomes one list of commands: those of the paths and shapes in it and in
its groups, one after the other.
-/

namespace VectorIcon.Svg

open Markup

mutual

/-- The commands that an element adds to a clip path. -/
def clipPart : Element → Noted (List (Path.Command Float))
  | ⟨name, attributes, children⟩ =>
    match Role.ofTag name with
    | .path => pathCommands ⟨name, attributes, children⟩
    | .shape => checkedShapeCommands ⟨name, attributes, children⟩
    | .group => clipParts children
    | .silent | .container => pure []

/-- The commands that a list of elements adds to a clip path. -/
def clipParts : List Element → Noted (List (Path.Command Float))
  | [] => pure []
  | e :: rest => do
    let first ← clipPart e
    let others ← clipParts rest
    return first ++ others

end

/-- The definitions with the clip paths of a document. -/
def defineClips (root : Element) (d : Definitions) : Noted Definitions :=
  (root.descendants.filter fun e => e.name == "clipPath").foldlM (fun d e =>
    match id? e with
    | some id => do return d.addClip id (← clipParts e.children)
    | none => pure d) d

end VectorIcon.Svg
