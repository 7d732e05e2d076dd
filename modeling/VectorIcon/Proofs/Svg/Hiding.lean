import VectorIcon.Proofs.Svg.Leniency
import VectorIcon.Proofs.Svg.Likeness

/-!
# Leaving out hidden elements

A hidden element without definitions in it can be deleted from a document, at any depth, and the parts of
the icon stay as they are (`nodes_of_pruned`). The walk skips it, and whether the groups around it hold
one part or more does not depend on it. What goes into definitions is another matter, as these are read
without asking what is hidden: stops count for their gradient, and a hidden path still adds its commands
to a clip path (`hidden_path_clips`).
-/

namespace VectorIcon.Svg

open Markup Icon

/-- What the elements of a list stand in. -/
inductive Scope
  | drawing
  | gradient
  | clip
  deriving Repr, DecidableEq

/-- What the children of an element stand in: groups in a clip path belong to it. -/
def Scope.inside (s : Scope) (e : Element) : Scope :=
  if isGradient e then .gradient
  else if e.name = "clipPath" then .clip
  else if e.name = "g" then if s = .clip then .clip else .drawing
  else .drawing

/-- An element is no part of the definition that it stands in. -/
def Scope.Spares (s : Scope) (e : Element) : Prop :=
  match s with
  | .drawing => True
  | .gradient => e.name ≠ "stop"
  | .clip => clipPart e = pure []

/-- Forests of which the second is the first without some hidden elements. -/
inductive Pruned : Scope → List Element → List Element → Prop
  | nil {s : Scope} : Pruned s [] []
  | cons {s : Scope} {e : Element} {children rest rest' : List Element} :
      Pruned (s.inside e) e.children children → Pruned s rest rest' →
      Pruned s (e :: rest) ({ e with children } :: rest')
  | drop {s : Scope} {e : Element} {rest rest' : List Element} :
      isHidden e = true → definitions e = [] → s.Spares e → Pruned s rest rest' →
      Pruned s (e :: rest) rest'

/-! ## What elements stand in -/

theorem Scope.inside_of_isGradient {e : Element} (h : isGradient e = true) (s : Scope) :
    s.inside e = .gradient :=
  if_pos h

theorem Scope.inside_of_clipPath {e : Element} (h : e.name = "clipPath") (s : Scope) :
    s.inside e = .clip := by
  have hgradient : ¬ isGradient e = true := by
    rw [isGradient, h]
    decide
  rw [Scope.inside, if_neg hgradient, if_pos h]

theorem Scope.inside_of_group {e : Element} (h : Role.ofTag e.name = .group) :
    Scope.clip.inside e = .clip := by
  have hname : e.name = "g" := by
    unfold Role.ofTag at h
    split_ifs at h
    assumption
  rw [Scope.inside, isGradient, hname]
  rfl

/-! ## Definitions without hidden elements -/

/-- An element and the same with other children are taken alike. -/
theorem drawsAlike_withChildren (e : Element) (children : List Element) :
    DrawsAlike (fun _ => True) e { e with children } :=
  drawsAlike_of_attributes_eq rfl rfl

/-- A gradient keeps its stops. -/
theorem mapM_readStop_of_pruned {s : Scope} {es es' : List Element} (h : Pruned s es es')
    (hs : s = .gradient) :
    (es'.filter fun child => child.name == "stop").mapM readStop =
      (es.filter fun child => child.name == "stop").mapM readStop := by
  induction h with
  | nil => rfl
  | @cons s e children rest rest' _ _ _ ih =>
    have hstop := readStop_of_looksAlike (drawsAlike_withChildren e children).toLooksAlike
    simp only [List.filter_cons]
    split
    · rw [List.mapM_cons, List.mapM_cons, hstop, ih hs]
    · exact ih hs
  | @drop s e rest rest' _ _ hspares _ ih =>
    subst hs
    have hname : (e.name == "stop") = false := beq_eq_false_iff_ne.2 hspares
    rw [List.filter_cons, hname, ih rfl]
    rfl

/-- A clip path keeps its commands. -/
theorem clipParts_of_pruned {s : Scope} {es es' : List Element} (h : Pruned s es es')
    (hs : s = .clip) : clipParts es' = clipParts es := by
  induction h with
  | nil => rfl
  | @cons s e children rest rest' _ _ ihchildren ihrest =>
    subst hs
    have hpart : clipPart { e with children } = clipPart e := by
      rw [clipPart_eq, clipPart_eq e]
      dsimp only
      -- only a group adds what is in it, and what is in it belongs to the clip path
      cases hrole : Role.ofTag e.name with
      | group => exact ihchildren (Scope.inside_of_group hrole)
      | _ => rfl
    rw [clipParts, clipParts, hpart, ihrest rfl]
  | @drop s e rest rest' _ _ hspares _ ih =>
    subst hs
    have hpart : clipPart e = pure [] := hspares
    rw [clipParts, hpart, ih rfl]
    exact (bind_pure _).symm

/-- What is left of a document is read as it was. -/
theorem counterparts_of_pruned {s : Scope} {es es' : List Element} (h : Pruned s es es') :
    Counterparts (ReadsAlike fun _ => True) (fun e => isHidden e = true ∧ definitions e = []) es
      es' := by
  induction h with
  | nil => exact .nil
  | @cons s e children rest rest' hchildren _ ihchildren ihrest =>
    refine .cons ?_ ihchildren ihrest
    exact {
      toDrawsAlike := drawsAlike_withChildren e children
      gradientId := fun _ => .refl _ _
      stops := fun h => mapM_readStop_of_pruned hchildren (Scope.inside_of_isGradient h s)
      clip := fun h => clipParts_of_pruned hchildren (Scope.inside_of_clipPath h s) }
  | drop hhidden hnone _ _ ih => exact .drop ⟨hhidden, hnone⟩ ih

/-! ## Documents without hidden elements -/

/-- Elements that cannot be drawn are no faults. -/
theorem firstFault?_survey (root : Element) :
    firstFault? (survey root).notices =
      firstFault? ((define root).notices ++
        (walkAll (define root).value root.children).notices) := by
  have hnotices : (survey root).notices = unsupported root ++ ((define root).notices ++
      (walkAll (define root).value root.children).notices) := by
    show unsupported root ++ ((define root).notices ++
      ((walkAll (define root).value root.children).notices ++ [])) = _
    rw [List.append_nil]
  have hunsupported : firstFault? (unsupported root) = none := by
    rw [firstFault?, List.findSome?_eq_none_iff]
    intro n hn
    obtain ⟨e, -, he⟩ := List.mem_filterMap.1 hn
    obtain ⟨category, -, rfl⟩ := Option.map_eq_some_iff.1 he
    rfl
  rw [hnotices, firstFault?, List.findSome?_append]
  unfold firstFault? at hunsupported
  rw [hunsupported, Option.none_or]
  rfl

section

variable {root : Element} {children : List Element} (hname : root.name = "svg")
  (h : Pruned .drawing root.children children)

include hname h

theorem counterparts_root_of_pruned :
    Counterparts (ReadsAlike fun _ => True) (fun e => isHidden e = true ∧ definitions e = []) [root]
      [{ root with children }] := by
  have hinside : Scope.drawing.inside root = .drawing := by
    rw [Scope.inside, isGradient, hname]
    rfl
  exact counterparts_of_pruned (.cons (hinside.symm ▸ h) .nil)

/-- The definitions and the walk are what they were. -/
theorem survey_of_pruned :
    firstFault? (survey { root with children }).notices = firstFault? (survey root).notices ∧
      (survey { root with children }).value.nodes = (survey root).value.nodes := by
  have hdefine := define_of_counterparts (counterparts_root_of_pruned hname h) fun _ hout => hout.2
  have hwalk : walkAll (define { root with children }).value children =
      walkAll (define root).value root.children :=
    walkAll_of_counterparts hdefine.2 (fun _ hout => walk_of_isHidden hout.1 _)
      ((counterparts_of_pruned h).mono fun _ _ _ he _ => he.toDrawsAlike)
  constructor
  · rw [firstFault?_survey, firstFault?_survey, hdefine.1, hwalk]
  · rw [nodes_survey, nodes_survey, hwalk]

end

/-- Hidden elements without definitions in them can be deleted from a document that can be read, if they
are no stops of a gradient and add nothing to a clip path: the rest can be read, and the parts of the
icon are the same. -/
theorem nodes_of_pruned {mode : Mode} {root : Element} {children : List Element} {drawing : Drawing}
    (h : Pruned .drawing root.children children) (hread : read mode root = .ok drawing) :
    ∃ drawing', read mode { root with children } = .ok drawing' ∧
      drawing'.icon.nodes = drawing.icon.nodes := by
  have hname : root.name = "svg" := by
    by_contra hne
    rw [read_wrongRoot hne] at hread
    cases hread
  obtain ⟨hfault, hnodes⟩ := survey_of_pruned hname h
  rw [icon_of_read hread, ← hnodes]
  cases mode with
  | lenient => exact ⟨_, read_lenient hname, rfl⟩
  | strict =>
    refine ⟨_, read_strict_of_none hname ?_, rfl⟩
    rw [hfault]
    cases hfirst : firstFault? (survey root).notices with
    | none => rfl
    | some error =>
      rw [read_strict_of_some hname hfirst] at hread
      cases hread

/-- A path that is not shown. -/
def hiddenPath : Element :=
  ⟨"path", [⟨none, "d", "zz"⟩, ⟨none, "style", "display: none"⟩], []⟩

/-- A clip path with the given parts, and a group with more of them that it clips. -/
def clippedGroup (clip shown : List Element) : List Element :=
  [⟨"clipPath", [⟨none, "id", "corner"⟩], ⟨"path", [⟨none, "d", "z"⟩], []⟩ :: clip⟩,
    ⟨"g", [⟨none, "clip-path", "url(#corner)"⟩], ⟨"path", [⟨none, "d", "z"⟩], []⟩ :: shown⟩]

/-- Hidden elements in a group and in a clip path, where the one adds nothing. -/
def partlyHidden : Element :=
  ⟨"svg", [], clippedGroup [⟨"text", [⟨none, "display", "none"⟩], []⟩] [hiddenPath]⟩

theorem pruned_partlyHidden : Pruned .drawing partlyHidden.children (clippedGroup [] []) := by
  have htext : Pruned .clip [⟨"text", [⟨none, "display", "none"⟩], []⟩] [] :=
    .drop (by decide +kernel) rfl rfl .nil
  have hpath : Pruned .drawing [hiddenPath] [] :=
    .drop (by decide +kernel) rfl trivial .nil
  exact .cons (.cons .nil htext) (.cons (.cons .nil hpath) .nil)

theorem nodes_of_pruned_partlyHidden :
    Pruned .drawing partlyHidden.children (clippedGroup [] []) ∧
      read .strict partlyHidden = .ok (drawingOf partlyHidden) ∧
      ∃ drawing', read .strict { partlyHidden with children := clippedGroup [] [] } = .ok drawing' ∧
        drawing'.icon.nodes = (drawingOf partlyHidden).icon.nodes := by
  have hread : read .strict partlyHidden = .ok (drawingOf partlyHidden) :=
    read_strict_of_none rfl (by decide +kernel)
  exact ⟨pruned_partlyHidden, hread, nodes_of_pruned pruned_partlyHidden hread⟩

/-- A hidden path adds its commands to a clip path. -/
theorem hidden_path_clips :
    isHidden hiddenPath = true ∧ definitions hiddenPath = [] ∧
      ∃ drawing drawing', read .strict ⟨"svg", [], clippedGroup [hiddenPath] []⟩ = .ok drawing ∧
        read .strict ⟨"svg", [], clippedGroup [] []⟩ = .ok drawing' ∧
        drawing'.icon.nodes ≠ drawing.icon.nodes := by
  have hfault : firstFault? (survey ⟨"svg", [], clippedGroup [hiddenPath] []⟩).notices = none := by
    decide +kernel
  have hfault' : firstFault? (survey ⟨"svg", [], clippedGroup [] []⟩).notices = none := by
    decide +kernel
  refine ⟨by decide +kernel, rfl, _, _, read_strict_of_none rfl hfault,
    read_strict_of_none rfl hfault', fun hnodes => ?_⟩
  have hclips := congrArg (fun nodes => (Node.placementsOf nodes).map Placement.clip) hnodes
  revert hclips
  decide +kernel

end VectorIcon.Svg
