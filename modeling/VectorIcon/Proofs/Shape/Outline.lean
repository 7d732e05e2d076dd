import Mathlib.Algebra.Order.Field.Basic
import Mathlib.Algebra.Order.Ring.Rat
import Mathlib.Data.List.Chain
import Mathlib.Tactic.Linarith
import Mathlib.Tactic.Ring
import VectorIcon.Shape
import VectorIcon.Proofs.Path.Drawing

/-!
# Outlines of shapes

In exact arithmetic the outline of a rectangle or of an ellipse goes once around its box, clockwise, from
where it begins to the same point (`outlines_around_boxes`). Only the ends of segments are looked at here, and
the radii of arcs.

1. A point of the boundary of a box has a place on the way around it, which begins in the upper left corner
   (`Box.along`). Points that are visited in this order up to the end of a round, and then on to the first of
   them, make a way as long as all sides (`Box.travelled_once`).
2. The corners of a rectangle are sharp or round (`isOutline_sharp`, `isOutline_round`). They are round when
   a radius is positive and none is zero (`cornerRadii_pos_iff`).
3. The arcs of an ellipse end where it touches the sides of its box (`isOutline_ellipse`, `isExtreme_axes`).
-/

namespace VectorIcon.Path.Segment

variable {α : Type}

/-- The point that a segment leads to. -/
def stop : Segment α → α × α
  | .move stop => stop
  | .line _ stop => stop
  | .cubic _ _ _ stop => stop
  | .quadratic _ _ stop => stop
  | .arc _ _ _ _ _ _ stop => stop
  | .close _ stop => stop

/-- The segment is a piece of an ellipse. -/
def isArc : Segment α → Bool
  | .arc .. => true
  | _ => false

end VectorIcon.Path.Segment

namespace VectorIcon.Shape

open VectorIcon.Path

/-- A box with its sides along the axes. -/
structure Box (α : Type) where
  left : α
  top : α
  width : α
  height : α

namespace Box

variable {α : Type} [Field α] [LinearOrder α] (b : Box α)

/-- The right side. -/
def right : α := b.left + b.width

/-- The lower side. -/
def bottom : α := b.top + b.height

/-- The length of all four sides. -/
def perimeter : α := b.width + b.height + b.width + b.height

/-- The point is on one of the sides. -/
def OnBoundary (p : α × α) : Prop :=
  (b.left ≤ p.1 ∧ p.1 ≤ b.right ∧ (p.2 = b.top ∨ p.2 = b.bottom)) ∨
    (b.top ≤ p.2 ∧ p.2 ≤ b.bottom ∧ (p.1 = b.left ∨ p.1 = b.right))

/-- The way along the sides, clockwise from the upper left corner to a point on one of them. -/
def along (p : α × α) : α :=
  if p.2 = b.top then p.1 - b.left
  else if p.1 = b.right then b.width + (p.2 - b.top)
  else if p.2 = b.bottom then b.width + b.height + (b.right - p.1)
  else b.width + b.height + b.width + (b.bottom - p.2)

/-- The way along the sides, clockwise from one point to another. -/
def ahead (p q : α × α) : α :=
  if b.along p ≤ b.along q then b.along q - b.along p
  else b.perimeter - (b.along p - b.along q)

/-- The way along the sides, clockwise from each point of a list to the next one. -/
def travelled : List (α × α) → α
  | p :: q :: rest => b.ahead p q + travelled (q :: rest)
  | _ => 0

end Box

section

variable {α : Type} [Field α] [LinearOrder α]

/-- The arcs among the segments that commands draw. -/
def arcs (cs : List (Command α)) : List (Segment α) :=
  (draw .new cs).filter Segment.isArc

/-- An arc is a quarter of an ellipse, clockwise and not turned, which is at most half as wide and half as
high as the box. -/
def IsQuarterIn (b : Box α) : Segment α → Prop
  | .arc start radiusX radiusY angle large sweep stop =>
    angle = 0 ∧ large = false ∧ sweep = true ∧
      (0 < radiusX ∧ radiusX ≤ b.width / 2 ∧ |stop.1 - start.1| = radiusX) ∧
      (0 < radiusY ∧ radiusY ≤ b.height / 2 ∧ |stop.2 - start.2| = radiusY)
  | _ => True

/-- The commands go once around a box, clockwise and back to where they begin. -/
structure IsOutline (b : Box α) (cs : List (Command α)) : Prop where
  closed : ∃ start between, cs = .moveTo .absolute start.1 start.2 :: (between ++ [.close]) ∧
    ∀ s ∈ (arcs cs).getLast?, s.stop = start
  onBoundary : ∀ s ∈ draw .new cs, b.OnBoundary s.stop
  clockwise : b.travelled ((draw .new cs).map Segment.stop) = b.perimeter
  quarters : ∀ s ∈ draw .new cs, IsQuarterIn b s

theorem IsOutline.ne_nil {b : Box α} {cs : List (Command α)} (h : IsOutline b cs) : cs ≠ [] := by
  obtain ⟨⟨start, between, rfl, -⟩, -, -, -⟩ := h
  exact List.cons_ne_nil _ _

/-- The point is on the ellipse with the given center and radii. -/
def OnEllipse (cx cy radiusX radiusY : α) (p : α × α) : Prop :=
  ((p.1 - cx) / radiusX) ^ 2 + ((p.2 - cy) / radiusY) ^ 2 = 1

/-- The leftmost, the topmost, the rightmost and the lowest point of an ellipse. -/
structure IsExtreme (cx cy radiusX radiusY : α) (left top right bottom : α × α) : Prop where
  on : ∀ p ∈ [left, top, right, bottom], OnEllipse cx cy radiusX radiusY p
  horizontal : ∀ p, OnEllipse cx cy radiusX radiusY p → left.1 ≤ p.1 ∧ p.1 ≤ right.1
  vertical : ∀ p, OnEllipse cx cy radiusX radiusY p → top.2 ≤ p.2 ∧ p.2 ≤ bottom.2

/-- Corners are to be round: a radius is positive, and none is zero. -/
def AreRound (rx ry : Option α) : Prop :=
  (∃ r, (rx = some r ∨ ry = some r) ∧ 0 < r) ∧ rx ≠ some 0 ∧ ry ≠ some 0

end

variable {α : Type} [Field α] [LinearOrder α] [IsStrictOrderedRing α]

/-! ## Ways around a box -/

namespace Box

variable (b : Box α)

omit [IsStrictOrderedRing α] in
/-- Points that lie one after the other on the way around are one way. -/
theorem travelled_of_isChain {p : α × α} {points : List (α × α)}
    (h : (p :: points).IsChain fun q r => b.along q ≤ b.along r) :
    b.travelled (p :: points) = b.along ((p :: points).getLast (List.cons_ne_nil _ _)) - b.along p := by
  induction points generalizing p with
  | nil => exact (sub_self _).symm
  | cons q points ih =>
    obtain ⟨hle, hrest⟩ := List.isChain_cons_cons.1 h
    rw [travelled, ahead, if_pos hle, ih hrest, List.getLast_cons_cons]
    ring

omit [IsStrictOrderedRing α] in
/-- After the last of them a point that lies before it is met on the next round. -/
theorem travelled_around {p q : α × α} {points rest : List (α × α)}
    (h : (p :: points).IsChain fun q r => b.along q ≤ b.along r)
    (hlast : b.along q < b.along ((p :: points).getLast (List.cons_ne_nil _ _))) :
    b.travelled (p :: points ++ q :: rest) =
      b.perimeter - (b.along p - b.along q) + b.travelled (q :: rest) := by
  induction points generalizing p with
  | nil =>
    have hlt : b.along q < b.along p := hlast
    show b.ahead p q + b.travelled (q :: rest) = _
    rw [ahead, if_neg (not_le.2 hlt)]
  | cons r points ih =>
    obtain ⟨hle, hrest⟩ := List.isChain_cons_cons.1 h
    show b.ahead p r + b.travelled (r :: points ++ q :: rest) = _
    rw [ahead, if_pos hle, ih hrest hlast]
    ring

omit [IsStrictOrderedRing α] in
/-- A way that comes back to where it begins on the next round is as long as all sides. -/
theorem travelled_once (p q : α × α) (points rest : List (α × α))
    (hpoints : (p :: points).IsChain fun q r => b.along q ≤ b.along r)
    (hrest : (q :: rest).IsChain fun q r => b.along q ≤ b.along r)
    (hlast : b.along q < b.along ((p :: points).getLast (List.cons_ne_nil _ _)))
    (hback : (q :: rest).getLast (List.cons_ne_nil _ _) = p) :
    b.travelled (p :: points ++ q :: rest) = b.perimeter := by
  rw [travelled_around b hpoints hlast, travelled_of_isChain b hrest, hback]
  ring

variable {b} {x y : α}

omit [IsStrictOrderedRing α] in
theorem along_top : b.along (x, b.top) = x - b.left :=
  if_pos rfl

omit [IsStrictOrderedRing α] in
theorem along_right (h : y ≠ b.top) : b.along (b.right, y) = b.width + (y - b.top) := by
  rw [along, if_neg h, if_pos rfl]

theorem along_bottom (h : 0 < b.height) (hx : x ≠ b.right) :
    b.along (x, b.bottom) = b.width + b.height + (b.right - x) := by
  have hbottom : b.bottom ≠ b.top := by
    rw [bottom]
    linarith
  rw [along, if_neg hbottom, if_neg hx, if_pos rfl]

theorem along_left (h : 0 < b.width) (htop : y ≠ b.top) (hbottom : y ≠ b.bottom) :
    b.along (b.left, y) = b.width + b.height + b.width + (b.bottom - y) := by
  have hright : b.left ≠ b.right := by
    rw [right]
    linarith
  rw [along, if_neg htop, if_neg hright, if_neg hbottom]

end Box

/-! ## Rectangles -/

section

variable {b : Box α}

theorem isOutline_sharp (hwidth : 0 < b.width) (hheight : 0 < b.height) :
    IsOutline b [.moveTo .absolute b.left b.top, .lineTo .absolute b.right b.top,
      .lineTo .absolute b.right b.bottom, .lineTo .absolute b.left b.bottom, .close] := by
  have hright : b.left < b.right := lt_add_of_pos_right _ hwidth
  have hbottom : b.top < b.bottom := lt_add_of_pos_right _ hheight
  refine ⟨⟨(b.left, b.top), [_, _, _], rfl, ?_⟩, ?_, ?_, ?_⟩
  · simp [arcs, draw, Command.segment, Segment.isArc]
  · simp [draw, Command.segment, Pen.place, Pen.after, Pen.goTo, Segment.stop, Box.OnBoundary,
      hright.le, hbottom.le]
  · have h₁ : b.along (b.left, b.top) = 0 := by rw [Box.along_top, sub_self]
    have h₂ : b.along (b.right, b.top) = b.width := by rw [Box.along_top, Box.right]; ring
    have h₃ : b.along (b.right, b.bottom) = b.width + b.height := by
      rw [Box.along_right hbottom.ne', Box.bottom]
      ring
    have h₄ : b.along (b.left, b.bottom) = b.width + b.height + b.width := by
      rw [Box.along_bottom hheight hright.ne, Box.right]
      ring
    refine b.travelled_once (b.left, b.top) (b.left, b.top)
      [(b.right, b.top), (b.right, b.bottom), (b.left, b.bottom)] [] ?_ ?_ ?_ rfl
    · simp only [List.isChain_cons_cons, List.isChain_singleton, h₁, h₂, h₃, h₄, and_true]
      refine ⟨?_, ?_, ?_⟩ <;> linarith
    · exact List.isChain_singleton _
    · simp only [List.getLast_cons_cons, List.getLast_singleton, h₁, h₄]
      linarith
  · simp [draw, Command.segment, IsQuarterIn]

theorem isOutline_round {rx ry : α} (hrx : 0 < rx ∧ rx ≤ b.width / 2)
    (hry : 0 < ry ∧ ry ≤ b.height / 2) :
    IsOutline b [.moveTo .absolute (b.left + rx) b.top,
      .lineTo .absolute (b.right - rx) b.top, quarter rx ry b.right (b.top + ry),
      .lineTo .absolute b.right (b.bottom - ry), quarter rx ry (b.right - rx) b.bottom,
      .lineTo .absolute (b.left + rx) b.bottom, quarter rx ry b.left (b.bottom - ry),
      .lineTo .absolute b.left (b.top + ry), quarter rx ry (b.left + rx) b.top, .close] := by
  obtain ⟨hrx, hwidth⟩ := hrx
  obtain ⟨hry, hheight⟩ := hry
  have hright : b.right = b.left + b.width := rfl
  have hbottom : b.bottom = b.top + b.height := rfl
  refine ⟨⟨(b.left + rx, b.top), [_, _, _, _, _, _, _, _], rfl, ?_⟩, ?_, ?_, ?_⟩
  · simp [arcs, quarter, draw, Command.segment, Segment.isArc, Segment.stop, Pen.place]
  · have hx : rx ≤ b.width ∧ b.left ≤ b.left + b.width - rx := ⟨by linarith, by linarith⟩
    have hy : ry ≤ b.height ∧ b.top ≤ b.top + b.height - ry := ⟨by linarith, by linarith⟩
    simp [quarter, draw, Command.segment, Pen.place, Pen.after, Pen.goTo, Segment.stop, Box.OnBoundary,
      hright, hbottom, hrx.le, hry.le, hx, hy]
  · have h₁ : b.along (b.left + rx, b.top) = rx := by rw [Box.along_top]; ring
    have h₂ : b.along (b.right - rx, b.top) = b.width - rx := by rw [Box.along_top, hright]; ring
    have h₃ : b.along (b.right, b.top + ry) = b.width + ry := by
      rw [Box.along_right (by linarith)]
      ring
    have h₄ : b.along (b.right, b.bottom - ry) = b.width + b.height - ry := by
      rw [Box.along_right (by linarith), hbottom]
      ring
    have h₅ : b.along (b.right - rx, b.bottom) = b.width + b.height + rx := by
      rw [Box.along_bottom (by linarith) (by linarith)]
      ring
    have h₆ : b.along (b.left + rx, b.bottom) = b.width + b.height + b.width - rx := by
      rw [Box.along_bottom (by linarith) (by linarith), hright]
      ring
    have h₇ : b.along (b.left, b.bottom - ry) = b.width + b.height + b.width + ry := by
      rw [Box.along_left (by linarith) (by linarith) (by linarith)]
      ring
    have h₈ : b.along (b.left, b.top + ry) = b.width + b.height + b.width + b.height - ry := by
      rw [Box.along_left (by linarith) (by linarith) (by linarith), hbottom]
      ring
    refine b.travelled_once (b.left + rx, b.top) (b.left + rx, b.top)
      [(b.right - rx, b.top), (b.right, b.top + ry), (b.right, b.bottom - ry),
        (b.right - rx, b.bottom), (b.left + rx, b.bottom), (b.left, b.bottom - ry), (b.left, b.top + ry)]
      [(b.left + rx, b.top)] ?_ ?_ ?_ rfl
    · simp only [List.isChain_cons_cons, List.isChain_singleton, h₁, h₂, h₃, h₄, h₅, h₆, h₇, h₈, and_true]
      refine ⟨?_, ?_, ?_, ?_, ?_, ?_, ?_⟩ <;> linarith
    · exact List.isChain_pair.2 le_rfl
    · simp only [List.getLast_cons_cons, List.getLast_singleton, h₁, h₈]
      linarith
  · simp [quarter, draw, Command.segment, Pen.place, Pen.after, Pen.goTo, IsQuarterIn, hrx, hry, hwidth,
      hheight, abs_of_pos, abs_of_neg]

end

theorem atMostHalf_mem {side r : α} (hside : 0 < side) (hr : 0 < r) :
    0 < atMostHalf side r ∧ atMostHalf side r ≤ side / 2 := by
  unfold atMostHalf
  split
  · exact ⟨half_pos hside, le_rfl⟩
  · exact ⟨hr, not_lt.1 ‹_›⟩

theorem atMostHalf_pos_iff {side r : α} (hside : 0 < side) : 0 < atMostHalf side r ↔ 0 < r := by
  refine ⟨fun h => ?_, fun hr => (atMostHalf_mem hside hr).1⟩
  unfold atMostHalf at h
  split at h
  · exact (half_pos hside).trans ‹_›
  · exact h

omit [IsStrictOrderedRing α] in
theorem cornerRadii_pos_iff {rx ry : Option α} :
    0 < (cornerRadii rx ry).1 ∧ 0 < (cornerRadii rx ry).2 ↔ AreRound rx ry := by
  unfold cornerRadii AreRound
  cases rx with
  | none =>
    cases ry with
    | none => simp
    | some b => by_cases hb : 0 ≤ b <;> grind
  | some a =>
    cases ry with
    | none => by_cases ha : 0 ≤ a <;> grind
    | some b => by_cases ha : 0 ≤ a <;> by_cases hb : 0 ≤ b <;> grind

/-- The outline of a rectangle whose sides are positive: either all of its corners are round or none is. -/
theorem rectangle_cases {x y width height : α} (rx ry : Option α) (hwidth : 0 < width)
    (hheight : 0 < height) :
    IsOutline ⟨x, y, width, height⟩ (rectangle x y width height rx ry) ∧
      ((arcs (rectangle x y width height rx ry)).length = 4 ∧ AreRound rx ry ∨
        arcs (rectangle x y width height rx ry) = [] ∧ ¬ AreRound rx ry) := by
  unfold rectangle
  rw [if_pos ⟨hwidth, hheight⟩]
  by_cases hround : AreRound rx ry
  · obtain ⟨hrx, hry⟩ := cornerRadii_pos_iff.2 hround
    have hrx := atMostHalf_mem hwidth hrx
    have hry := atMostHalf_mem hheight hry
    have hnot : ¬ (atMostHalf width (cornerRadii rx ry).1 ≤ 0 ∨
        atMostHalf height (cornerRadii rx ry).2 ≤ 0) :=
      not_or.2 ⟨not_le.2 hrx.1, not_le.2 hry.1⟩
    simp only [if_neg hnot]
    exact ⟨isOutline_round (b := ⟨x, y, width, height⟩) hrx hry, Or.inl ⟨rfl, hround⟩⟩
  · have hsharp : atMostHalf width (cornerRadii rx ry).1 ≤ 0 ∨
        atMostHalf height (cornerRadii rx ry).2 ≤ 0 := by
      rw [← cornerRadii_pos_iff, not_and_or] at hround
      rwa [← not_lt, ← not_lt, atMostHalf_pos_iff hwidth, atMostHalf_pos_iff hheight]
    simp only [if_pos hsharp]
    exact ⟨isOutline_sharp (b := ⟨x, y, width, height⟩) hwidth hheight, Or.inr ⟨rfl, hround⟩⟩

theorem rectangle_eq_nil_iff {x y width height : α} {rx ry : Option α} :
    rectangle x y width height rx ry = [] ↔ width ≤ 0 ∨ height ≤ 0 := by
  rw [← not_iff_not, not_or, not_le, not_le]
  refine ⟨fun h => ?_, fun h => (rectangle_cases rx ry h.1 h.2).1.ne_nil⟩
  by_contra hnot
  exact h (if_neg hnot)

/-! ## Ellipses -/

section

variable {cx cy rx ry : α}

theorem isOutline_ellipse (hrx : 0 < rx) (hry : 0 < ry) :
    IsOutline ⟨cx - rx, cy - ry, 2 * rx, 2 * ry⟩ (ellipse cx cy rx ry) := by
  unfold ellipse
  rw [if_pos ⟨hrx, hry⟩]
  let b : Box α := ⟨cx - rx, cy - ry, 2 * rx, 2 * ry⟩
  have hright : b.right = cx + rx := show cx - rx + 2 * rx = cx + rx by ring
  have hbottom : b.bottom = cy + ry := show cy - ry + 2 * ry = cy + ry by ring
  have hleft : b.left = cx - rx := rfl
  have htop : b.top = cy - ry := rfl
  have hwidth : b.width = 2 * rx := rfl
  have hheight : b.height = 2 * ry := rfl
  show IsOutline b _
  refine ⟨⟨(cx - rx, cy), [_, _, _, _], rfl, ?_⟩, ?_, ?_, ?_⟩
  · simp [arcs, quarter, draw, Command.segment, Segment.isArc, Segment.stop, Pen.place]
  · have h₁ : b.OnBoundary (cx - rx, cy) := Or.inr ⟨by linarith, by linarith, Or.inl rfl⟩
    have h₂ : b.OnBoundary (cx, cy - ry) := Or.inl ⟨by linarith, by linarith, Or.inl rfl⟩
    have h₃ : b.OnBoundary (cx + rx, cy) := Or.inr ⟨by linarith, by linarith, Or.inr hright.symm⟩
    have h₄ : b.OnBoundary (cx, cy + ry) := Or.inl ⟨by linarith, by linarith, Or.inr hbottom.symm⟩
    simp [quarter, draw, Command.segment, Pen.place, Pen.after, Pen.goTo, Segment.stop, h₁, h₂, h₃, h₄]
  · have hne : cy ≠ b.top := (sub_lt_self cy hry).ne'
    have h₁ : b.along (cx, cy - ry) = rx := (Box.along_top (b := b)).trans (sub_sub_self cx rx)
    have h₂ : b.along (cx + rx, cy) = 2 * rx + ry := by
      rw [← hright, Box.along_right hne]
      exact congrArg (2 * rx + ·) (sub_sub_self cy ry)
    have h₃ : b.along (cx, cy + ry) = 2 * rx + 2 * ry + rx := by
      rw [← hbottom, Box.along_bottom (by linarith) (by linarith), hright]
      exact congrArg (2 * rx + 2 * ry + ·) (add_sub_cancel_left cx rx)
    have h₄ : b.along (cx - rx, cy) = 2 * rx + 2 * ry + 2 * rx + ry := by
      refine (Box.along_left (b := b) (by linarith) hne (by linarith)).trans ?_
      rw [hbottom]
      exact congrArg (2 * rx + 2 * ry + 2 * rx + ·) (add_sub_cancel_left cy ry)
    refine b.travelled_once (cx - rx, cy) (cx, cy - ry) []
      [(cx + rx, cy), (cx, cy + ry), (cx - rx, cy), (cx - rx, cy)] ?_ ?_ ?_ rfl
    · exact List.isChain_singleton _
    · simp only [List.isChain_cons_cons, List.isChain_singleton, h₁, h₂, h₃, h₄, and_true]
      refine ⟨?_, ?_, ?_, ?_⟩ <;> linarith
    · simp only [List.getLast_singleton, h₁, h₄]
      linarith
  · simp [quarter, draw, Command.segment, Pen.place, Pen.after, Pen.goTo, IsQuarterIn, hrx, hry, hwidth,
      hheight, abs_of_pos, abs_of_neg]

theorem ellipse_eq_nil_iff : ellipse cx cy rx ry = [] ↔ rx ≤ 0 ∨ ry ≤ 0 := by
  rw [← not_iff_not, not_or, not_le, not_le]
  refine ⟨fun h => ?_, fun h => (isOutline_ellipse h.1 h.2).ne_nil⟩
  by_contra hnot
  exact h (if_neg hnot)

/-- No coordinate of a point on an ellipse is further from the center than the radius. -/
theorem abs_le_of_sq_add_sq {radius d u : α} (hradius : 0 < radius) (h : (d / radius) ^ 2 + u ^ 2 = 1) :
    |d| ≤ radius := by
  have hle : (d / radius) ^ 2 ≤ 1 := by
    have := sq_nonneg u
    linarith
  have habs : |d / radius| ≤ 1 := (sq_le_one_iff_abs_le_one _).1 hle
  rwa [abs_div, abs_of_pos hradius, div_le_one hradius] at habs

theorem isExtreme_axes (hrx : 0 < rx) (hry : 0 < ry) :
    IsExtreme cx cy rx ry (cx - rx, cy) (cx, cy - ry) (cx + rx, cy) (cx, cy + ry) := by
  refine ⟨?_, fun p hp => ?_, fun p hp => ?_⟩
  · simp [OnEllipse, hrx.ne', hry.ne']
  · obtain ⟨hleft, hright⟩ := abs_le.1 (abs_le_of_sq_add_sq hrx hp)
    constructor <;> linarith
  · obtain ⟨htop, hbottom⟩ := abs_le.1 (abs_le_of_sq_add_sq hry ((add_comm _ _).trans hp))
    constructor <;> linarith

end

/-- A rectangle without a positive width and height has no outline. Every other outline goes once around its
box, with round corners where radii ask for them. An ellipse is the same with its radii, and its four arcs end
where it is highest, rightmost, lowest and leftmost. -/
theorem outlines_around_boxes (x y width height cx cy radiusX radiusY : α) (rx ry : Option α) :
    (rectangle x y width height rx ry = [] ↔ width ≤ 0 ∨ height ≤ 0) ∧
      (rectangle x y width height rx ry = [] ∨
        IsOutline ⟨x, y, width, height⟩ (rectangle x y width height rx ry) ∧
          ((arcs (rectangle x y width height rx ry)).length = 4 ∧ AreRound rx ry ∨
            arcs (rectangle x y width height rx ry) = [] ∧ ¬ AreRound rx ry)) ∧
      (ellipse cx cy radiusX radiusY = [] ↔ radiusX ≤ 0 ∨ radiusY ≤ 0) ∧
      (ellipse cx cy radiusX radiusY = [] ∨
        IsOutline ⟨cx - radiusX, cy - radiusY, 2 * radiusX, 2 * radiusY⟩ (ellipse cx cy radiusX radiusY) ∧
          ∃ left top right bottom, IsExtreme cx cy radiusX radiusY left top right bottom ∧
            (draw .new (ellipse cx cy radiusX radiusY)).head? = some (.move left) ∧
            (arcs (ellipse cx cy radiusX radiusY)).map Segment.stop = [top, right, bottom, left]) := by
  refine ⟨rectangle_eq_nil_iff, or_iff_not_imp_left.2 fun h => ?_, ellipse_eq_nil_iff,
    or_iff_not_imp_left.2 fun h => ?_⟩
  · rw [rectangle_eq_nil_iff, not_or, not_le, not_le] at h
    exact rectangle_cases rx ry h.1 h.2
  · rw [ellipse_eq_nil_iff, not_or, not_le, not_le] at h
    refine ⟨isOutline_ellipse h.1 h.2, _, _, _, _, isExtreme_axes h.1 h.2, ?_⟩
    rw [ellipse, if_pos h]
    exact ⟨rfl, rfl⟩

/-- One radius is enough for four round corners, also when it is more than half of a side. -/
theorem outlines_around_boxes_oneRadius :
    IsOutline ⟨2, 3, 10, 4⟩ (rectangle 2 3 10 4 (some 7) none : List (Command ℚ)) ∧
      (arcs (rectangle 2 3 10 4 (some 7) none : List (Command ℚ))).length = 4 ∧
      IsOutline ⟨-5, -2, 10, 4⟩ (ellipse 0 0 5 2 : List (Command ℚ)) := by
  obtain ⟨hnil, hrectangle, hnil', hellipse⟩ :=
    outlines_around_boxes (2 : ℚ) 3 10 4 0 0 5 2 (some 7) none
  have hround : AreRound (some 7) (none : Option ℚ) :=
    ⟨⟨7, Or.inl rfl, by norm_num⟩, by norm_num, (Option.some_ne_none 0).symm⟩
  obtain ⟨houtline, harcs⟩ := hrectangle.resolve_left (hnil.not.2 (by norm_num))
  obtain ⟨houtline', -⟩ := hellipse.resolve_left (hnil'.not.2 (by norm_num))
  norm_num at houtline'
  refine ⟨houtline, ?_, houtline'⟩
  exact harcs.elim And.left fun hsharp => absurd hround hsharp.2

end VectorIcon.Shape
