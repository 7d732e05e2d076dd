import VectorIcon.Svg.Document

/-!
# The sizes of drawings

What is read as a size is a finite number, and is kept only if it is positive; without it there is a
default. So the icon of a document always has a size, and the check at the end of a reading never fails
(`read_eq`).
-/

namespace VectorIcon.Svg

open Markup Number

theorem isFinite_of_read? {s : List Char} {v : Float} (h : read? s = some v) :
    isFinite v = true := by
  unfold read? finite? at h
  split at h
  · split at h
    · next hfinite =>
      cases h
      exact hfinite
    · cases h
  · cases h

theorem isFinite_of_readLength? {value : String} {v : Float} (h : readLength? value = some v) :
    isFinite v = true := by
  unfold readLength? at h
  dsimp only at h
  split at h
  · cases h
  · exact isFinite_of_read? h

theorem isSize_of_positive {v : Float} (hfinite : isFinite v = true) (hpositive : 0 < v) :
    Icon.isSize v = true := by
  rw [Icon.isSize, hfinite, Bool.true_and]
  exact decide_eq_true hpositive

theorem isSize_readSize (value : Option String) : Icon.isSize (readSize value) = true := by
  have hdefault : Icon.isSize defaultSize = true := by decide +kernel
  unfold readSize
  cases hsize : (value.bind readLength?).filter fun v => decide (0 < v) with
  | none => exact hdefault
  | some v =>
    obtain ⟨hread, hpositive⟩ := Option.filter_eq_some_iff.1 hsize
    obtain ⟨text, -, hlength⟩ := Option.bind_eq_some_iff.1 hread
    exact isSize_of_positive (isFinite_of_readLength? hlength) (of_decide_eq_true hpositive)

/-- Numbers that are read together are finite. -/
theorem isFinite_of_mapM_read? {pieces : List (List Char)} {vs : List Float}
    (h : pieces.mapM read? = some vs) : ∀ v ∈ vs, isFinite v = true := by
  induction pieces generalizing vs with
  | nil =>
    cases h
    nofun
  | cons piece pieces ih =>
    rw [List.mapM_cons] at h
    obtain ⟨v, hv, hrest⟩ := Option.bind_eq_some_iff.1 h
    obtain ⟨us, hus, hvs⟩ := Option.bind_eq_some_iff.1 hrest
    cases hvs
    exact List.forall_mem_cons.2 ⟨isFinite_of_read? hv, ih hus⟩

theorem isSize_of_readViewBox? {value : String} {w h : Float}
    (hbox : readViewBox? value = some (w, h)) : Icon.isSize w = true ∧ Icon.isSize h = true := by
  unfold readViewBox? at hbox
  split at hbox
  · next hread =>
    have hfinite := isFinite_of_mapM_read? hread
    split at hbox
    · next hpositive =>
      cases hbox
      exact ⟨isSize_of_positive (hfinite w (by simp)) hpositive.1,
        isSize_of_positive (hfinite h (by simp)) hpositive.2⟩
    · cases hbox
  · cases hbox

theorem isSize_viewport (value : Option String) {w h : Float} (hw : Icon.isSize w = true)
    (hh : Icon.isSize h = true) :
    Icon.isSize ((value.bind readViewBox?).getD (w, h)).1 = true ∧
      Icon.isSize ((value.bind readViewBox?).getD (w, h)).2 = true := by
  cases hbox : value.bind readViewBox? with
  | none => exact ⟨hw, hh⟩
  | some box =>
    obtain ⟨text, -, hread⟩ := Option.bind_eq_some_iff.1 hbox
    exact isSize_of_readViewBox? hread

theorem checked_eq {icon : Icon} (hwidth : Icon.isSize icon.width = true)
    (hheight : Icon.isSize icon.height = true) (hviewportWidth : Icon.isSize icon.viewportWidth = true)
    (hviewportHeight : Icon.isSize icon.viewportHeight = true) (hmirror : icon.autoMirror = false)
    (htint : icon.tint = none) : checked icon = .ok icon := by
  obtain ⟨name, width, height, viewportWidth, viewportHeight, nodes, autoMirror, tint⟩ := icon
  subst hmirror htint
  have hempty : Icon.create name width height viewportWidth viewportHeight =
      .ok ⟨name, width, height, viewportWidth, viewportHeight, [], false, none⟩ := by
    simp [Icon.create, hwidth, hheight, hviewportWidth, hviewportHeight]
  rw [checked, hempty]
  rfl

/-- The icon of a document has its sizes. -/
theorem checked_survey (root : Element) :
    checked (survey root).value = .ok (survey root).value := by
  have hwidth := isSize_readSize (root.attribute? "width")
  have hheight := isSize_readSize (root.attribute? "height")
  have hviewport := isSize_viewport (root.attribute? "viewBox") hwidth hheight
  exact checked_eq hwidth hheight hviewport.1 hviewport.2 rfl rfl

/-- Only faults in path data, and only in a strict reading, stop the reading of a document. -/
theorem read_eq (mode : Mode) (root : Element) :
    read mode root =
      if root.name ≠ "svg" then .error (.wrongRoot root.name)
      else
        match mode, firstFault? (survey root).notices with
        | .strict, some error => .error (.path error)
        | _, _ =>
          .ok ⟨(survey root).value, .ofReports ((survey root).notices.map Notice.toWarning)⟩ := by
  unfold read
  simp only [checked_survey]
  rfl

end VectorIcon.Svg
