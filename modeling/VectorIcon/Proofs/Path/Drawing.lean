import Mathlib.Algebra.Field.Rat
import Mathlib.Algebra.Group.Prod
import VectorIcon.Number.Binary
import VectorIcon.Path.Command

/-!
# What commands draw

A pen draws the commands of a path one after the other. Each becomes one segment between absolute
points, and leaves the pen where the next one starts.

1. What comes before a list of commands tells only through the pen (`draw_append`).
2. A list that is empty or starts with an absolute move is drawn the same by every pen
   (`draw_of_isAnchored`).
3. Lists one after the other are drawn as they are drawn alone exactly when none of them tells the pen
   that is left to it from a new one (`draw_flatMap_eq_iff`).

The numbers are those of any commutative group, so nothing is rounded; `Number.exact` reads doubles as
such numbers.
-/

namespace VectorIcon.Number

/-- The number that a finite double is; zero for the others. -/
def exact (v : Float) : ℚ :=
  match Binary.ofFloat? v with
  | some b => b.signed b.mantissa * 2 ^ b.exponent
  | none => 0

end VectorIcon.Number

namespace VectorIcon.Path

/-- A piece of a drawing between absolute points. -/
inductive Segment (α : Type) where
  | move (stop : α × α)
  | line (start stop : α × α)
  | cubic (start first second stop : α × α)
  | quadratic (start control stop : α × α)
  | arc (start : α × α) (radiusX radiusY angle : α) (large sweep : Bool) (stop : α × α)
  | close (start stop : α × α)
  deriving DecidableEq

/-- A pen: the current point, the start of the subpath, and the control points that the next smooth
curves mirror. -/
structure Pen (α : Type) where
  point : α × α
  start : α × α
  cubic : α × α
  quadratic : α × α

/-- The same command with other numbers. -/
def Command.map {α β : Type} (f : α → β) : Command α → Command β
  | .moveTo frame x y => .moveTo frame (f x) (f y)
  | .lineTo frame x y => .lineTo frame (f x) (f y)
  | .horizontalTo frame x => .horizontalTo frame (f x)
  | .verticalTo frame y => .verticalTo frame (f y)
  | .curveTo frame x₁ y₁ x₂ y₂ x₃ y₃ => .curveTo frame (f x₁) (f y₁) (f x₂) (f y₂) (f x₃) (f y₃)
  | .quadTo frame x₁ y₁ x₂ y₂ => .quadTo frame (f x₁) (f y₁) (f x₂) (f y₂)
  | .smoothCurveTo frame x₁ y₁ x₂ y₂ => .smoothCurveTo frame (f x₁) (f y₁) (f x₂) (f y₂)
  | .smoothQuadTo frame x y => .smoothQuadTo frame (f x) (f y)
  | .arcTo frame rx ry angle large sweep x y =>
    .arcTo frame (f rx) (f ry) (f angle) large sweep (f x) (f y)
  | .close => .close

@[simp]
theorem Command.letter_map {α β : Type} (f : α → β) (c : Command α) :
    (c.map f).letter = c.letter := by
  cases c <;> rfl

/-- Nothing, or first of all an absolute move. -/
def IsAnchored {α : Type} : List (Command α) → Prop
  | [] => True
  | c :: _ => c.letter = .draw .absolute .moveTo

instance {α : Type} : DecidablePred (IsAnchored (α := α))
  | [] => inferInstanceAs (Decidable True)
  | c :: _ => inferInstanceAs (Decidable (c.letter = .draw .absolute .moveTo))

theorem isAnchored_map {α β : Type} {f : α → β} {cs : List (Command α)} (h : IsAnchored cs) :
    IsAnchored (cs.map (Command.map f)) := by
  cases cs with
  | nil => trivial
  | cons c rest => exact (Command.letter_map f c).trans h

variable {α : Type} [AddCommGroup α]

/-! ## The pen -/

/-- A pen at the origin that has drawn nothing. -/
def Pen.new : Pen α :=
  ⟨0, 0, 0, 0⟩

/-- The pen at another point of its subpath, with no curve to go on. -/
def Pen.goTo (pen : Pen α) (stop : α × α) : Pen α :=
  ⟨stop, pen.start, stop, stop⟩

/-- The pen after a segment. -/
def Pen.after (pen : Pen α) : Segment α → Pen α
  | .move stop => ⟨stop, stop, stop, stop⟩
  | .line _ stop => pen.goTo stop
  | .cubic _ _ second stop => { pen.goTo stop with cubic := second }
  | .quadratic _ control stop => { pen.goTo stop with quadratic := control }
  | .arc _ _ _ _ _ _ stop => pen.goTo stop
  | .close _ stop => pen.goTo stop

/-- The absolute place of a point that is given in a frame. -/
def Pen.place (pen : Pen α) (frame : Frame) (x y : α) : α × α :=
  match frame with
  | .absolute => (x, y)
  | .relative => pen.point + (x, y)

/-- A point mirrored at the current point. -/
def Pen.mirror (pen : Pen α) (control : α × α) : α × α :=
  pen.point + (pen.point - control)

/-- The segment that a command draws. -/
def Command.segment (pen : Pen α) : Command α → Segment α
  | .moveTo frame x y => .move (pen.place frame x y)
  | .lineTo frame x y => .line pen.point (pen.place frame x y)
  | .horizontalTo frame x => .line pen.point ((pen.place frame x 0).1, pen.point.2)
  | .verticalTo frame y => .line pen.point (pen.point.1, (pen.place frame 0 y).2)
  | .curveTo frame x₁ y₁ x₂ y₂ x₃ y₃ =>
    .cubic pen.point (pen.place frame x₁ y₁) (pen.place frame x₂ y₂) (pen.place frame x₃ y₃)
  | .quadTo frame x₁ y₁ x₂ y₂ =>
    .quadratic pen.point (pen.place frame x₁ y₁) (pen.place frame x₂ y₂)
  | .smoothCurveTo frame x₁ y₁ x₂ y₂ =>
    .cubic pen.point (pen.mirror pen.cubic) (pen.place frame x₁ y₁) (pen.place frame x₂ y₂)
  | .smoothQuadTo frame x y =>
    .quadratic pen.point (pen.mirror pen.quadratic) (pen.place frame x y)
  | .arcTo frame rx ry angle large sweep x y =>
    .arc pen.point rx ry angle large sweep (pen.place frame x y)
  | .close => .close pen.point pen.start

/-- The segments that a list of commands draws. -/
def draw (pen : Pen α) : List (Command α) → List (Segment α)
  | [] => []
  | c :: rest => c.segment pen :: draw (pen.after (c.segment pen)) rest

/-- The pen after a list of commands. -/
def Pen.afterAll (pen : Pen α) (cs : List (Command α)) : Pen α :=
  (draw pen cs).foldl Pen.after pen

/-! ## Lists of commands -/

theorem length_draw (pen : Pen α) (cs : List (Command α)) : (draw pen cs).length = cs.length := by
  induction cs generalizing pen with
  | nil => rfl
  | cons c rest ih => rw [draw, List.length_cons, List.length_cons, ih]

theorem draw_append (pen : Pen α) (cs ds : List (Command α)) :
    draw pen (cs ++ ds) = draw pen cs ++ draw (pen.afterAll cs) ds := by
  induction cs generalizing pen with
  | nil => rfl
  | cons c rest ih =>
    rw [List.cons_append, draw, draw, ih, List.cons_append]
    rfl

theorem afterAll_append (pen : Pen α) (cs ds : List (Command α)) :
    pen.afterAll (cs ++ ds) = (pen.afterAll cs).afterAll ds := by
  unfold Pen.afterAll
  rw [draw_append, List.foldl_append]
  rfl

/-- What is anchored is drawn the same by every pen: an absolute move leaves nothing of the pen. -/
theorem draw_of_isAnchored {cs : List (Command α)} (h : IsAnchored cs) (pen pen' : Pen α) :
    draw pen cs = draw pen' cs := by
  cases cs with
  | nil => rfl
  | cons c rest =>
    cases c with
    | moveTo frame x y =>
      cases frame with
      | absolute => rfl
      | relative => cases h
    | _ => cases h

/-- Lists one after the other are drawn as they are drawn alone exactly when none of them tells the pen
that the lists before it leave from a new one. -/
theorem draw_flatMap_eq_iff {ι : Type} (commands : ι → List (Command α)) (pen : Pen α)
    (parts : List ι) :
    draw pen (parts.flatMap commands) = parts.flatMap (fun i => draw .new (commands i)) ↔
      ∀ before i after, parts = before ++ i :: after →
        draw (pen.afterAll (before.flatMap commands)) (commands i) = draw .new (commands i) := by
  induction parts generalizing pen with
  | nil =>
    refine ⟨fun _ before i after h => ?_, fun _ => rfl⟩
    simp at h
  | cons first rest ih =>
    rw [List.flatMap_cons, List.flatMap_cons, draw_append]
    constructor
    · intro h before i after hparts
      have hlength : (draw pen (commands first)).length = (draw .new (commands first)).length := by
        rw [length_draw, length_draw]
      obtain ⟨hfirst, hrest⟩ := List.append_inj h hlength
      cases before with
      | nil =>
        obtain ⟨rfl, -⟩ := List.cons.inj hparts
        exact hfirst
      | cons head before =>
        obtain ⟨rfl, hbelow⟩ := List.cons.inj hparts
        rw [List.flatMap_cons, afterAll_append]
        exact (ih _).1 hrest before i after hbelow
    · intro h
      have hfirst : draw pen (commands first) = draw .new (commands first) := h [] first rest rfl
      rw [hfirst]
      refine congrArg (draw .new (commands first) ++ ·) ((ih _).2 fun before i after hparts => ?_)
      rw [← afterAll_append, ← List.flatMap_cons]
      exact h (first :: before) i after (by rw [hparts, List.cons_append])

end VectorIcon.Path
