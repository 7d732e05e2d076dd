import VectorIcon.Shape
import VectorIcon.Proofs.Number.Addition
import VectorIcon.Proofs.Path.Finite

/-!
# Outlines with finite numbers

On doubles the outline of a rectangle or of an ellipse may have infinities, since its far sides are computed.
It has none exactly when these sides are below the limit of doubles in exact arithmetic
(`isFinite_rectangle_iff`, `isFinite_ellipse_iff`). The round corners of a rectangle add nothing to this: they
lie between its sides, and no rounding of a far side takes away what is left between (`isFinite_corner`).
-/

namespace VectorIcon.Shape

open Number Kotlin VectorIcon.Path

variable {x y width height rx ry v w r : Float}

/-! ## Sides -/

theorem isFinite_far_iff (hv : isFinite v = true) (hw : isFinite w = true) (hpos : 0 < exact w) :
    isFinite (v + w) = true ↔ exact v + exact w < limit := by
  rw [(isRounded_add hv hw).isFinite_iff, abs_lt]
  refine and_iff_right ?_
  have hlow := (abs_lt.1 (abs_exact_lt hv)).1
  linarith

/-- A corner lies between two sides. -/
theorem isFinite_corner (hv : isFinite v = true) (hw : isFinite w = true) (hr : isFinite r = true)
    (hpos : 0 < exact r) (hlt : exact r < exact w) (hfar : isFinite (v + w) = true) :
    isFinite (v + r) = true ∧ isFinite (v + w - r) = true := by
  have hside := (isFinite_far_iff hv hw (hpos.trans hlt)).1 hfar
  have hsum := isRounded_add hv hw
  have hnear := (abs_le.1 (hsum.near (hsum.isFinite_iff.1 hfar))).1
  have hlow := (abs_le.1 (abs_exact_le hv)).1
  have hhigh := (abs_lt.1 (abs_exact_lt hfar)).2
  refine ⟨(isFinite_far_iff hv hr hpos).2 (by linarith), ?_⟩
  rw [(isRounded_sub hfar hr).isFinite_iff, abs_lt]
  constructor <;> linarith

/-- A radius that is cut to half a side is less than the side. -/
theorem exact_atMostHalf_lt (hw : isFinite w = true) (hr : isFinite r = true) (hpos : 0 < exact w) :
    isFinite (atMostHalf w r) = true ∧ exact (atMostHalf w r) < exact w := by
  obtain ⟨hhalf, hlt⟩ := exact_half_lt hw hpos
  unfold atMostHalf
  split
  · exact ⟨hhalf, hlt⟩
  · next hle =>
    rw [lt_iff_exact hhalf hr, not_lt] at hle
    exact ⟨hr, hle.trans_lt hlt⟩

/-! ## Rectangles -/

theorem isFinite_cornerRadii {rx ry : Option Float} (hrx : ∀ r ∈ rx, isFinite r = true)
    (hry : ∀ r ∈ ry, isFinite r = true) :
    isFinite (cornerRadii rx ry).1 = true ∧ isFinite (cornerRadii rx ry).2 = true := by
  have hfilter {r : Option Float} (h : ∀ v ∈ r, isFinite v = true) :
      ∀ v ∈ r.filter (fun v => decide (0 ≤ v)), isFinite v = true :=
    fun v hv => h v (Option.mem_filter_iff.1 hv).1
  unfold cornerRadii
  split
  · next hx hy => exact ⟨hfilter hrx _ hx, hfilter hry _ hy⟩
  · next hx _ => exact ⟨hfilter hrx _ hx, hfilter hrx _ hx⟩
  · next _ hy => exact ⟨hfilter hry _ hy, hfilter hry _ hy⟩
  · exact ⟨by decide, by decide⟩

/-- The outline of a rectangle has finite numbers exactly when its far sides are below the limit. -/
theorem isFinite_rectangle_iff {rx ry : Option Float} (hx : isFinite x = true) (hy : isFinite y = true)
    (hwidth : isFinite width = true) (hheight : isFinite height = true)
    (hrx : ∀ r ∈ rx, isFinite r = true) (hry : ∀ r ∈ ry, isFinite r = true) :
    AreFinite (rectangle x y width height rx ry) ↔
      (0 < width ∧ 0 < height → exact x + exact width < limit ∧ exact y + exact height < limit) := by
  by_cases hpos : 0 < width ∧ 0 < height
  · obtain ⟨hwidth₀, hheight₀⟩ : 0 < exact width ∧ 0 < exact height :=
      ⟨exact_pos hwidth hpos.1, exact_pos hheight hpos.2⟩
    obtain ⟨hleft, hright⟩ := isFinite_cornerRadii hrx hry
    obtain ⟨hrx, hrxlt⟩ := exact_atMostHalf_lt hwidth hleft hwidth₀
    obtain ⟨hry, hrylt⟩ := exact_atMostHalf_lt hheight hright hheight₀
    rw [forall_prop_of_true hpos, ← isFinite_far_iff hx hwidth hwidth₀, ← isFinite_far_iff hy hheight hheight₀]
    unfold rectangle
    rw [if_pos hpos]
    dsimp only
    generalize atMostHalf width (cornerRadii rx ry).1 = a at hrx hrxlt ⊢
    generalize atMostHalf height (cornerRadii rx ry).2 = b at hry hrylt ⊢
    split
    · simp [AreFinite, commandNumbers, Command.arguments, hx, hy]
    · next hround =>
      obtain ⟨ha, hb⟩ := not_or.1 hround
      have hzero : isFinite 0 = true := by decide
      refine ⟨fun h => ⟨h (x + width) ?_, h (y + height) ?_⟩, fun h => ?_⟩
      · simp [commandNumbers, Command.arguments, quarter]
      · simp [commandNumbers, Command.arguments, quarter]
      · obtain ⟨hright, hbottom⟩ := h
        have hcorners := isFinite_corner hx hwidth hrx (exact_pos_of_not_le hrx ha) hrxlt hright
        have hcorners' := isFinite_corner hy hheight hry (exact_pos_of_not_le hry hb) hrylt hbottom
        simp [AreFinite, commandNumbers, Command.arguments, quarter, hx, hy, hrx, hry, hzero, hright, hbottom,
          hcorners, hcorners']
  · have hnil : rectangle x y width height rx ry = [] := if_neg hpos
    rw [hnil]
    exact iff_of_true areFinite_nil fun h => absurd h hpos

/-! ## Ellipses -/

/-- Both sides of an ellipse are finite exactly when the one farther from zero is. -/
theorem isFinite_both_iff (hv : isFinite v = true) (hr : isFinite r = true) (hpos : 0 < exact r) :
    isFinite (v - r) = true ∧ isFinite (v + r) = true ↔ |exact v| + exact r < limit := by
  obtain ⟨hlow, hhigh⟩ := abs_lt.1 (abs_exact_lt hv)
  have hfarther : |exact v| + exact r < limit ↔ -(limit - exact r) < exact v ∧ exact v < limit - exact r := by
    rw [← lt_sub_iff_add_lt, abs_lt]
  rw [(isRounded_sub hv hr).isFinite_iff, (isRounded_add hv hr).isFinite_iff, abs_lt, abs_lt, hfarther]
  constructor
  · rintro ⟨⟨hleft, -⟩, -, hright⟩
    constructor <;> linarith
  · rintro ⟨hleft, hright⟩
    exact ⟨⟨by linarith, by linarith⟩, by linarith, by linarith⟩

/-- The outline of an ellipse has finite numbers exactly when all its sides are below the limit. -/
theorem isFinite_ellipse_iff (hx : isFinite x = true) (hy : isFinite y = true)
    (hrx : isFinite rx = true) (hry : isFinite ry = true) :
    AreFinite (ellipse x y rx ry) ↔
      (0 < rx ∧ 0 < ry → |exact x| + exact rx < limit ∧ |exact y| + exact ry < limit) := by
  by_cases hpos : 0 < rx ∧ 0 < ry
  · have hzero : isFinite 0 = true := by decide
    rw [forall_prop_of_true hpos, ← isFinite_both_iff hx hrx (exact_pos hrx hpos.1),
      ← isFinite_both_iff hy hry (exact_pos hry hpos.2), ellipse, if_pos hpos]
    refine ⟨fun h => ⟨⟨h (x - rx) ?_, h (x + rx) ?_⟩, h (y - ry) ?_, h (y + ry) ?_⟩, fun h => ?_⟩
    all_goals simp [AreFinite, commandNumbers, Command.arguments, quarter, hx, hy, hrx, hry, hzero, h]
  · have hnil : ellipse x y rx ry = [] := if_neg hpos
    rw [hnil]
    exact iff_of_true areFinite_nil fun h => absurd h hpos

/-! ## Lines -/

theorem numbers_lines (points : List (Float × Float)) :
    (lines points).flatMap commandNumbers = points.flatMap fun p => [p.1, p.2] := by
  cases points with
  | nil => rfl
  | cons p rest =>
    rw [lines, List.flatMap_cons, List.flatMap_cons, List.flatMap_map]
    rfl

theorem areFinite_lines {points : List (Float × Float)}
    (h : ∀ p ∈ points, isFinite p.1 = true ∧ isFinite p.2 = true) : AreFinite (lines points) := by
  intro v hv
  rw [numbers_lines] at hv
  obtain ⟨p, hp, hvp⟩ := List.mem_flatMap.1 hv
  obtain ⟨hx, hy⟩ := h p hp
  simp only [List.mem_cons, List.not_mem_nil, or_false] at hvp
  rcases hvp with rfl | rfl
  · exact hx
  · exact hy

theorem areFinite_polyline {points : List (Float × Float)}
    (h : ∀ p ∈ points, isFinite p.1 = true ∧ isFinite p.2 = true) : AreFinite (polyline points) := by
  unfold polyline
  split
  · exact areFinite_nil
  · exact areFinite_lines h

theorem areFinite_polygon {points : List (Float × Float)}
    (h : ∀ p ∈ points, isFinite p.1 = true ∧ isFinite p.2 = true) : AreFinite (polygon points) := by
  unfold polygon
  split
  · exact areFinite_nil
  · exact areFinite_append.2 ⟨areFinite_lines h, nofun⟩

theorem isFinite_of_mem_pairs {vs : List Float} (h : ∀ v ∈ vs, isFinite v = true) :
    ∀ p ∈ pairs vs, isFinite p.1 = true ∧ isFinite p.2 = true := by
  fun_induction pairs vs with
  | case1 x y rest ih =>
    obtain ⟨hx, hy, hrest⟩ := (List.forall_mem_cons.1 h).imp_right List.forall_mem_cons.1
    exact List.forall_mem_cons.2 ⟨⟨hx, hy⟩, ih hrest⟩
  | case2 => nofun

end VectorIcon.Shape
