import VectorIcon.Proofs.Path.Drawing
import VectorIcon.Proofs.Svg.DocumentOrder

/-!
# What a clip path draws

`draw_clipParts`: the commands of a clip path are those of its drawables, one list after the other, and it
draws what its drawables draw alone, exactly when each of them draws the same with the pen that the ones
before it leave; which all shapes do, and all path data that starts with an absolute move.
Path data that starts in another way goes on from the drawable before it (`draw_clipParts_followed`).
-/

namespace VectorIcon.Svg

open Markup VectorIcon.Path

mutual

/-- The paths and shapes that an element adds to a clip path, in document order: itself, or those in a
group. -/
def clipDrawables : Element → List Element
  | ⟨name, attributes, children⟩ =>
    if isDrawable ⟨name, attributes, children⟩ then [⟨name, attributes, children⟩]
    else if name = "g" then clipDrawablesOf children else []

/-- The paths and shapes that a list of elements adds to a clip path. -/
def clipDrawablesOf : List Element → List Element
  | [] => []
  | e :: rest => clipDrawables e ++ clipDrawablesOf rest

end

/-- The commands of an element with its numbers read in another way. -/
def commandsIn {α : Type} (value : Float → α) (e : Element) : List (Path.Command α) :=
  (commandsOf e).map (Command.map value)

/-! ## The commands of a clip path -/

mutual

/-- An element adds the commands of its drawables. -/
theorem value_clipPart : ∀ e : Element,
    (clipPart e).value = (clipDrawables e).flatMap commandsOf
  | ⟨name, attributes, children⟩ => by
    let e : Element := ⟨name, attributes, children⟩
    by_cases hpath : name = "path"
    · have hdraw : isDrawable e = true := by
        subst hpath
        rfl
      have hrole : Role.ofTag name = .path := by
        subst hpath
        rfl
      rw [clipPart, hrole, clipDrawables, if_pos hdraw, List.flatMap_singleton]
      exact value_pathCommands (e := e) hpath
    by_cases hshape : shapeTags.contains name = true
    · have hdraw : isDrawable e = true := by
        rw [isDrawable, hshape, Bool.or_true]
      have hrole : Role.ofTag name = .shape := by
        rw [Role.ofTag, if_neg hpath, if_pos hshape]
      rw [clipPart, hrole, clipDrawables, if_pos hdraw, List.flatMap_singleton]
      exact value_checkedShapeCommands (e := e) hpath
    have hdraw : ¬ isDrawable e = true := by
      rw [isDrawable, beq_false_of_ne hpath, Bool.false_or]
      exact hshape
    rw [clipPart, clipDrawables, if_neg hdraw]
    by_cases hgroup : name = "g"
    · have hrole : Role.ofTag name = .group := by
        subst hgroup
        rfl
      rw [hrole, if_pos hgroup]
      exact value_clipParts children
    · have hrole : Role.ofTag name = .silent ∨ Role.ofTag name = .container := by
        rw [Role.ofTag, if_neg hpath, if_neg hshape, if_neg hgroup]
        split
        · exact .inl rfl
        · exact .inr rfl
      rw [if_neg hgroup]
      rcases hrole with hrole | hrole <;> rw [hrole] <;> rfl

theorem value_clipParts : ∀ es : List Element,
    (clipParts es).value = (clipDrawablesOf es).flatMap commandsOf
  | [] => rfl
  | e :: rest => by
    rw [clipDrawablesOf, List.flatMap_append, ← value_clipPart e, ← value_clipParts rest]
    rfl

end

/-! ## Shapes -/

section

variable {β : Type}

theorem isAnchored_lines (points : List (β × β)) : IsAnchored (Shape.lines points) := by
  cases points with
  | nil => trivial
  | cons p rest => rfl

theorem isAnchored_polyline (points : List (β × β)) : IsAnchored (Shape.polyline points) := by
  unfold Shape.polyline
  split
  · trivial
  · exact isAnchored_lines points

theorem isAnchored_polygon (points : List (β × β)) : IsAnchored (Shape.polygon points) := by
  unfold Shape.polygon
  split
  · trivial
  · next hcount =>
    cases points with
    | nil => exact absurd (Nat.zero_lt_succ 2) hcount
    | cons p rest => rfl

end

/-- The outlines of shapes start with an absolute move. -/
theorem isAnchored_shapeCommands (e : Element) : IsAnchored (shapeCommands e) := by
  unfold shapeCommands
  dsimp only
  split
  · unfold Shape.rectangle
    dsimp only
    split
    · split <;> rfl
    · trivial
  · unfold Shape.circle Shape.ellipse
    split
    · rfl
    · trivial
  · unfold Shape.ellipse
    split
    · rfl
    · trivial
  · rfl
  · exact isAnchored_polygon _
  · exact isAnchored_polyline _
  · trivial

/-! ## The drawing of a clip path -/

section

variable {α : Type} [AddCommGroup α]

/-- Every pen draws a shape in the same way, and a path that gives no commands or starts with an
absolute move. -/
theorem draw_commandsIn (value : Float → α) {d : Element}
    (h : d.name ≠ "path" ∨ IsAnchored (commandsOf d)) (pen : Pen α) :
    draw pen (commandsIn value d) = draw .new (commandsIn value d) := by
  have hanchored : IsAnchored (commandsOf d) := by
    rcases h with hshape | hanchored
    · rw [commandsOf, if_neg hshape]
      exact isAnchored_shapeCommands d
    · exact hanchored
  exact draw_of_isAnchored (isAnchored_map hanchored) pen .new

/-- The commands of a clip path are those of its drawables, one list after the other. What they draw, in
numbers of any commutative group, is what the drawables draw alone, exactly when none of them tells the pen
that the drawables before it leave from a new one. No shape does, and no path that gives no commands or
starts with an absolute move. -/
theorem draw_clipParts (value : Float → α) (e : Element) :
    (clipParts e.children).value = (clipDrawablesOf e.children).flatMap commandsOf ∧
    (draw .new ((clipParts e.children).value.map (Command.map value)) =
        (clipDrawablesOf e.children).flatMap (fun d => draw .new (commandsIn value d)) ↔
      ∀ before d after, clipDrawablesOf e.children = before ++ d :: after →
        draw (Pen.new.afterAll (before.flatMap (commandsIn value))) (commandsIn value d) =
          draw .new (commandsIn value d)) ∧
    ∀ d : Element, d.name ≠ "path" ∨ IsAnchored (commandsOf d) →
      ∀ pen : Pen α, draw pen (commandsIn value d) = draw .new (commandsIn value d) := by
  refine ⟨value_clipParts e.children, ?_, fun d h pen => draw_commandsIn value h pen⟩
  have hcommands : (clipParts e.children).value.map (Command.map value) =
      (clipDrawablesOf e.children).flatMap (commandsIn value) := by
    rw [value_clipParts, List.map_flatMap]
    rfl
  rw [hcommands]
  exact draw_flatMap_eq_iff (commandsIn value) .new (clipDrawablesOf e.children)

end

/-- A path element. -/
def pathElement (data : String) : Element :=
  ⟨"path", [⟨none, "d", data⟩], []⟩

/-- Two triangles, of which the second starts with an absolute move. -/
def apartClip : Element :=
  ⟨"clipPath", [⟨none, "id", "corner"⟩], [pathElement "M10 10h5v5z", pathElement "M1 1h5v5z"]⟩

theorem draw_clipParts_apart :
    draw .new ((clipParts apartClip.children).value.map (Command.map Number.exact)) =
      draw .new (commandsIn Number.exact (pathElement "M10 10h5v5z")) ++
        draw .new (commandsIn Number.exact (pathElement "M1 1h5v5z")) := by
  obtain ⟨-, hiff, halone⟩ := draw_clipParts Number.exact apartClip
  have hanchored : ∀ d ∈ clipDrawablesOf apartClip.children, IsAnchored (commandsOf d) := by
    decide +kernel
  have hdrawables : clipDrawablesOf apartClip.children =
      [pathElement "M10 10h5v5z", pathElement "M1 1h5v5z"] := rfl
  have hdraw := hiff.2 fun before d after h => halone d (.inr (hanchored d ?_)) _
  · rw [hdraw, hdrawables, List.flatMap_cons, List.flatMap_singleton]
  · rw [h]
    exact List.mem_append_right before (List.mem_cons_self ..)

/-- Two triangles, of which the second starts with a relative move. -/
def followedClip : Element :=
  ⟨"clipPath", [⟨none, "id", "corner"⟩], [pathElement "M10 10h5v5z", pathElement "m1 1h5v5z"]⟩

/-- The second triangle is drawn at the end of the first one, not where it is drawn alone. -/
theorem draw_clipParts_followed :
    draw .new ((clipParts followedClip.children).value.map (Command.map Number.exact)) ≠
      (clipDrawablesOf followedClip.children).flatMap fun d =>
        draw .new (commandsIn Number.exact d) := by
  decide +kernel

end VectorIcon.Svg
