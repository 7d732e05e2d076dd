import VectorIcon.Proofs.Shape.Finite
import VectorIcon.Proofs.Svg.ClipDrawing
import VectorIcon.Proofs.Svg.WellFormed

/-!
# Numbers that are read are finite

Lengths, opacities and coordinates are finite when they are read. So a path has finite numbers but for those of
its commands (`mem_numbers_styled`), and its commands have finite numbers when they are those of path data or of
lines. The far sides of a rectangle, a circle or an ellipse are computed: the commands of an element have finite
numbers exactly when it fits (`areFinite_commandsOf_iff`).
-/

namespace VectorIcon.Svg

open Markup Icon Number Kotlin VectorIcon.Path

/-! ## Attributes -/

variable {v : Float}

theorem isFinite_of_readFraction? {value : String} (h : readFraction? value = some v) :
    isFinite v = true := by
  unfold readFraction? at h
  dsimp only at h
  split at h
  · obtain ⟨u, hu, rfl⟩ := Option.map_eq_some_iff.1 h
    exact isFinite_percent (isFinite_of_read? hu)
  · exact isFinite_of_read? h

theorem isFraction_of_readOpacity? {value : String} (h : readOpacity? value = some v) : IsFraction v := by
  obtain ⟨u, hu, rfl⟩ := Option.map_eq_some_iff.1 h
  exact isFraction_clamp (isFinite_of_readFraction? hu)

/-- A length of an element; zero without it. -/
def lengthOf (e : Element) (name : String) : Float :=
  ((e.attribute? name).bind readLength?).getD 0

theorem isFinite_of_length? {e : Element} {name : String} :
    ∀ v ∈ (e.attribute? name).bind readLength?, isFinite v = true := by
  intro v hv
  obtain ⟨value, -, hread⟩ := Option.bind_eq_some_iff.1 hv
  exact isFinite_of_readLength? hread

theorem isFinite_getD {r : Option Float} {w : Float} (hw : isFinite w = true)
    (h : ∀ v ∈ r, isFinite v = true) : isFinite (r.getD w) = true := by
  cases r with
  | none => exact hw
  | some v => exact h v rfl

theorem isFinite_lengthOf (e : Element) (name : String) : isFinite (lengthOf e name) = true :=
  isFinite_getD (by decide) isFinite_of_length?

/-! ## Paints -/

theorem isFinite_offset_readStop (e : Element) : isFinite (readStop e).value.offset = true := by
  have hoffset : (readStop e).value.offset =
      ((property? e "offset").bind readFraction?).elim 0 (clamp 0 1) := by
    unfold readStop
    cases (property? e "stop-opacity").bind readOpacity? <;> rfl
  rw [hoffset]
  cases hread : (property? e "offset").bind readFraction? with
  | none => decide
  | some v =>
    obtain ⟨value, -, hfraction⟩ := Option.bind_eq_some_iff.1 hread
    exact (isFraction_clamp (isFinite_of_readFraction? hfraction)).isFinite

theorem isFinite_gradientCoordinate (e : Element) (name : String) {w : Float} (hw : isFinite w = true) :
    isFinite (gradientCoordinate e name w) = true := by
  refine isFinite_getD hw fun v hv => ?_
  obtain ⟨value, -, hread⟩ := Option.bind_eq_some_iff.1 hv
  exact isFinite_of_read? hread

/-- The focus of a radial gradient. -/
def focus? : Paint → Option Point
  | .radial _ _ focus _ => focus
  | _ => none

/-- The numbers of a paint that are not written. -/
def focusNumbers (p : Paint) : List Float :=
  (focus? p).elim [] fun focus => [focus.x, focus.y]

/-- The paint of a gradient has finite numbers, when its stops have finite offsets. -/
theorem isFinite_gradientPaint (e : Element) {stops : List Stop}
    (h : ∀ s ∈ stops, isFinite s.offset = true) :
    ∀ w ∈ paintNumbers (gradientPaint e stops) ++ focusNumbers (gradientPaint e stops), isFinite w = true := by
  have hcoordinate (name : String) {w : Float} (hw : isFinite w = true) := isFinite_gradientCoordinate e name hw
  have hzero (name : String) := hcoordinate name (w := 0) (by decide)
  have hfifty (name : String) := hcoordinate name (w := 50) (by decide)
  have hhundred (name : String) := hcoordinate name (w := 100) (by decide)
  have hfocus (name : String) {w : Float} (hw : isFinite w = true) :
      isFinite (((e.attribute? name).map fun _ => gradientCoordinate e name 50).getD w) = true := by
    refine isFinite_getD hw fun v hv => ?_
    obtain ⟨_, -, rfl⟩ := Option.map_eq_some_iff.1 hv
    exact hfifty name
  intro w hw
  unfold gradientPaint at hw
  dsimp only at hw
  split at hw
  · simp only [paintNumbers, focusNumbers, focus?, Option.elim_none, List.append_nil, List.mem_append,
      List.mem_map, List.mem_cons, List.not_mem_nil, or_false] at hw
    rcases hw with ⟨s, hs, rfl⟩ | rfl | rfl | rfl | rfl
    · exact h s hs
    · exact hzero _
    · exact hzero _
    · exact hhundred _
    · exact hzero _
  · rcases List.mem_append.1 hw with hw | hw
    · simp only [paintNumbers, List.mem_append, List.mem_map, List.mem_cons, List.not_mem_nil, or_false] at hw
      rcases hw with ⟨s, hs, rfl⟩ | rfl | rfl | rfl
      · exact h s hs
      · exact hfifty _
      · exact hfifty _
      · exact hfifty _
    · unfold focusNumbers focus? at hw
      dsimp only at hw
      split at hw
      · cases hw
      · simp only [Option.elim_some, List.mem_cons, List.not_mem_nil, or_false] at hw
        rcases hw with rfl | rfl
        · exact hfocus _ (hfifty _)
        · exact hfocus _ (hfifty _)

theorem isFinite_readPaint (root : Element) (value : String) {p : Paint}
    (h : p ∈ (readPaint (define root).value value).value) :
    ∀ w ∈ paintNumbers p ++ focusNumbers p, isFinite w = true := by
  rcases readPaint_cases h with ⟨color, rfl⟩ | ⟨id, hfound⟩
  · nofun
  · obtain ⟨e, stops, rfl, -, hstops⟩ := exists_gradientPaint hfound
    refine isFinite_gradientPaint e fun s hs => ?_
    obtain ⟨child, rfl⟩ := hstops s hs
    exact isFinite_offset_readStop child

/-! ## Paths -/

/-- The numbers of a path that are not written. -/
def unwrittenNumbers (o : Outline) : List Float :=
  (o.fill.toList ++ o.stroke.toList).flatMap focusNumbers ++ [o.trimStart, o.trimEnd, o.trimOffset]

/-- An opacity of an element; one without it. -/
def opacityOf (e : Element) (name : String) : Float :=
  ((property? e name).bind readOpacity?).getD 1

theorem isFraction_opacityOf (e : Element) (name : String) : IsFraction (opacityOf e name) := by
  unfold opacityOf
  cases hread : (property? e name).bind readOpacity? with
  | none => exact isFraction_one
  | some v =>
    obtain ⟨value, -, hopacity⟩ := Option.bind_eq_some_iff.1 hread
    exact isFraction_of_readOpacity? hopacity

theorem alphas_styled (d : Definitions) (e : Element) (commands : List (Command Float)) :
    let o := (styled d e commands).value
    o.fillAlpha = opacityOf e "fill-opacity" * opacityOf e "opacity" ∧
      o.strokeAlpha = opacityOf e "stroke-opacity" * opacityOf e "opacity" := by
  unfold styled
  cases property? e "fill" <;> cases property? e "stroke" <;> exact ⟨rfl, rfl⟩

theorem lineWidth_styled (d : Definitions) (e : Element) (commands : List (Command Float)) :
    let width := ((property? e "stroke-width").bind readLength?).getD 0
    (styled d e commands).value.lineWidth = if 0 < width then width else 0 := by
  unfold styled
  cases property? e "fill" <;> cases property? e "stroke" <;> rfl

theorem isFinite_paints (root e : Element) (commands : List (Command Float)) :
    let o := (styled (define root).value e commands).value
    ∀ p ∈ o.fill.toList ++ o.stroke.toList, ∀ w ∈ paintNumbers p ++ focusNumbers p, isFinite w = true := by
  intro o p hp
  obtain ⟨-, hfill, hstroke, -⟩ := fields_styled (define root).value e commands
  rcases List.mem_append.1 hp with hp | hp
  · rw [Option.mem_toList, hfill] at hp
    cases hproperty : property? e "fill" with
    | none =>
      rw [hproperty] at hp
      cases hp
      nofun
    | some value =>
      rw [hproperty] at hp
      exact isFinite_readPaint root value hp
  · rw [Option.mem_toList, hstroke] at hp
    cases hproperty : property? e "stroke" with
    | none =>
      rw [hproperty] at hp
      cases hp
    | some value =>
      rw [hproperty] at hp
      exact isFinite_readPaint root value hp

theorem isFinite_line (d : Definitions) (e : Element) (commands : List (Command Float)) :
    let o := (styled d e commands).value
    ∀ w ∈ [o.fillAlpha, o.strokeAlpha, o.lineWidth, o.miterLimit, o.trimStart, o.trimEnd, o.trimOffset],
      isFinite w = true := by
  have hzero : isFinite 0 = true := by decide
  obtain ⟨-, -, -, -, hlimit, hstart, hend, hoffset⟩ := fields_styled d e commands
  obtain ⟨hfill, hstroke⟩ := alphas_styled d e commands
  have hopacity := isFraction_opacityOf e "opacity"
  simp only [List.forall_mem_cons, hfill, hstroke, lineWidth_styled, hlimit, hstart, hend, hoffset]
  refine ⟨(isFraction_opacityOf e _).isFinite_mul hopacity, (isFraction_opacityOf e _).isFinite_mul hopacity,
    ?_, ?_, hzero, by decide, hzero, nofun⟩
  · split
    · refine isFinite_getD hzero fun v hv => ?_
      obtain ⟨value, -, hread⟩ := Option.bind_eq_some_iff.1 hv
      exact isFinite_of_readLength? hread
    · exact hzero
  · refine isFinite_getD (by decide) fun v hv => ?_
    obtain ⟨value, -, hread⟩ := Option.bind_eq_some_iff.1 (Option.filter_eq_some_iff.1 hv).1
    exact isFinite_of_read? hread

/-- The paints and the line of a path that are read have finite numbers. -/
theorem mem_numbers_styled (root e : Element) {commands : List (Command Float)} (hv : isFinite v = false) :
    v ∈ outlineNumbers (styled (define root).value e commands).value ++
        unwrittenNumbers (styled (define root).value e commands).value ↔
      v ∈ commands.flatMap commandNumbers := by
  have hpaints := isFinite_paints root e commands
  have hline := isFinite_line (define root).value e commands
  have hcommands := commands_styled (define root).value e commands
  generalize (styled (define root).value e commands).value = o at hpaints hline hcommands ⊢
  subst hcommands
  have hfinite {P : Prop} (hw : isFinite v = true) : P := by
    rw [hv] at hw
    cases hw
  refine ⟨fun hmem => ?_, fun hmem => List.mem_append_left _ (List.mem_append_right _ hmem)⟩
  rw [outlineNumbers, unwrittenNumbers, List.mem_append, List.mem_append, List.mem_append, List.mem_append] at hmem
  rcases hmem with ((hpaint | hnumber) | hcommand) | hfocus | htrim
  · obtain ⟨p, hp, hvp⟩ := List.mem_flatMap.1 hpaint
    exact hfinite (hpaints p hp v (List.mem_append_left _ hvp))
  · exact hfinite (hline v (List.mem_append_left [o.trimStart, o.trimEnd, o.trimOffset] hnumber))
  · exact hcommand
  · obtain ⟨p, hp, hvp⟩ := List.mem_flatMap.1 hfocus
    exact hfinite (hpaints p hp v (List.mem_append_right _ hvp))
  · exact hfinite (hline v
      (List.mem_append_right [o.fillAlpha, o.strokeAlpha, o.lineWidth, o.miterLimit] htrim))

/-! ## Commands -/

/-- The sides of a shape are below the limit of doubles in exact arithmetic. Nothing is asked of a shape without
a size, of lines and of path data. -/
def Fits (e : Element) : Prop :=
  (e.name = "rect" → 0 < lengthOf e "width" ∧ 0 < lengthOf e "height" →
    exact (lengthOf e "x") + exact (lengthOf e "width") < limit ∧
      exact (lengthOf e "y") + exact (lengthOf e "height") < limit) ∧
  (e.name = "circle" → 0 < lengthOf e "r" →
    |exact (lengthOf e "cx")| + exact (lengthOf e "r") < limit ∧
      |exact (lengthOf e "cy")| + exact (lengthOf e "r") < limit) ∧
  (e.name = "ellipse" → 0 < lengthOf e "rx" ∧ 0 < lengthOf e "ry" →
    |exact (lengthOf e "cx")| + exact (lengthOf e "rx") < limit ∧
      |exact (lengthOf e "cy")| + exact (lengthOf e "ry") < limit)

instance (e : Element) : Decidable (Fits e) :=
  inferInstanceAs (Decidable (_ ∧ _ ∧ _))

theorem isFinite_parsePoints (text : String) :
    ∀ p ∈ Shape.parsePoints text, isFinite p.1 = true ∧ isFinite p.2 = true := by
  have hread (pieces : List (List Char)) : ∀ v ∈ Shape.readWhile read? pieces, isFinite v = true := by
    induction pieces with
    | nil => nofun
    | cons piece pieces ih =>
      unfold Shape.readWhile
      split
      · next hv => exact List.forall_mem_cons.2 ⟨isFinite_of_read? hv, ih⟩
      · nofun
  exact Shape.isFinite_of_mem_pairs (hread _)

theorem areFinite_shapeCommands_iff (e : Element) : AreFinite (shapeCommands e) ↔ Fits e := by
  have hlength := isFinite_lengthOf e
  have hpoints := isFinite_parsePoints ((e.attribute? "points").getD "")
  unfold shapeCommands Fits
  dsimp only
  generalize e.name = name
  split
  · exact (Shape.isFinite_rectangle_iff (hlength _) (hlength _) (hlength _) (hlength _) isFinite_of_length?
      isFinite_of_length?).trans (by simp)
  · exact (Shape.isFinite_ellipse_iff (hlength "cx") (hlength "cy") (hlength "r") (hlength "r")).trans (by simp)
  · exact (Shape.isFinite_ellipse_iff (hlength _) (hlength _) (hlength _) (hlength _)).trans (by simp)
  · have hends : ∀ p ∈ [(lengthOf e "x1", lengthOf e "y1"), (lengthOf e "x2", lengthOf e "y2")],
        isFinite p.1 = true ∧ isFinite p.2 = true := by
      simp [hlength]
    exact iff_of_true (Shape.areFinite_lines hends) (by simp)
  · exact iff_of_true (Shape.areFinite_polygon hpoints) (by simp)
  · exact iff_of_true (Shape.areFinite_polyline hpoints) (by simp)
  · next hrect hcircle hellipse _ _ _ =>
    exact iff_of_true areFinite_nil
      ⟨fun h => absurd h hrect, fun h => absurd h hcircle, fun h => absurd h hellipse⟩

/-- The commands of an element have finite numbers exactly when it fits. -/
theorem areFinite_commandsOf_iff (e : Element) : AreFinite (commandsOf e) ↔ Fits e := by
  by_cases hpath : e.name = "path"
  · have hfits : Fits e := by simp [Fits, hpath]
    refine iff_of_true ?_ hfits
    rw [commandsOf, if_pos hpath]
    cases hparse : Path.parse ((e.attribute? "d").getD "") with
    | error error => exact areFinite_nil
    | ok cs => exact areFinite_of_parse hparse
  · rw [commandsOf, if_neg hpath]
    exact areFinite_shapeCommands_iff e

end VectorIcon.Svg
