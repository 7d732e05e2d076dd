import VectorIcon.Proofs.Svg.GradientChain
import VectorIcon.Proofs.Svg.Likeness

/-!
# Identifiers with blanks around them

A clip path is found by its identifier without the blanks around it, a gradient by its identifier as it
is written. So blanks around the identifier of a clip path do not matter, and around that of a gradient
only if no element asks for it, with or without these blanks (`read_of_padded`). A gradient that is asked
for is lost by them (`padding_loses_gradient`).
-/

namespace VectorIcon.Svg

open Markup Icon

/-- Some element of a document asks for a gradient by an identifier. -/
def IsAsked (root : Element) (id : String) : Prop :=
  ∃ e ∈ root.descendants, id ∈ askedBy e

instance (root : Element) (id : String) : Decidable (IsAsked root id) :=
  inferInstanceAs (Decidable (∃ e ∈ root.descendants, id ∈ askedBy e))

/-- Elements that differ in the blanks around the identifier of a definition; when it is a gradient, it
is asked for with neither of the identifiers. -/
inductive Padded (asked : String → Prop) (e e' : Element) : Prop
  | same : e'.name = e.name → e'.attributes = e.attributes → Padded asked e e'
  | clip {s t : String} : e.name = "clipPath" → SameBut "id" e e' → e.attribute? "id" = some s →
      e'.attribute? "id" = some t → trimmed t = trimmed s → Padded asked e e'
  | gradient {s t : String} : isGradient e = true → SameBut "id" e e' → e.attribute? "id" = some s →
      e'.attribute? "id" = some t → trimmed t = trimmed s → ¬ asked s → ¬ asked t → Padded asked e e'

section

variable {asked : String → Prop} {e e' : Element} (h : Padded asked e e')

include h

theorem sameBut_of_padded : SameBut "id" e e' := by
  cases h with
  | same htag hall => exact ⟨htag, by rw [hall]⟩
  | clip _ hbut => exact hbut
  | gradient _ hbut => exact hbut

theorem looksAlike_of_padded : LooksAlike e e' := by
  have hbut := sameBut_of_padded h
  refine looksAlike_of_sameBut hbut List.mem_cons_self fun p hp => ?_
  have hne : p ≠ "id" := by
    rintro rfl
    revert hp
    decide
  rw [property?, property?, declared?, declared?, attribute?_of_sameBut hbut hne,
    attribute?_of_sameBut hbut (by decide : "style" ≠ "id")]

theorem id?_of_padded : id? e' = id? e := by
  cases h with
  | same _ hall => rw [id?, id?, attribute?_of_attributes_eq hall]
  | clip _ _ hid hid' htrimmed => rw [id?, id?, hid, hid', Option.map_some, Option.map_some, htrimmed]
  | gradient _ _ hid hid' htrimmed =>
    rw [id?, id?, hid, hid', Option.map_some, Option.map_some, htrimmed]

/-- A gradient has an identifier that is asked for only if its counterpart has the same. -/
theorem gradientId_of_padded (hgradient : isGradient e = true) :
    SameIfAsked asked (e.attribute? "id") (e'.attribute? "id") := by
  cases h with
  | same _ hall =>
    rw [attribute?_of_attributes_eq hall]
    exact .refl _ _
  | clip hname =>
    rw [isGradient, hname] at hgradient
    cases hgradient
  | gradient _ _ hid hid' _ hs ht =>
    rw [hid, hid']
    refine .some fun id hasked => ?_
    constructor
    · rintro rfl
      exact absurd hasked hs
    · rintro rfl
      exact absurd hasked ht

end

/-- A gradient is found by its identifier as it is written only. -/
theorem exists_of_gradient? {root : Element} {id : String} {paint : Paint}
    (h : (define root).value.gradient? id = some paint) :
    ∃ e ∈ root.descendants, isGradient e = true ∧ e.attribute? "id" = some id := by
  rw [gradient?_of_chains] at h
  obtain ⟨e, hlast, -⟩ := Option.map_eq_some_iff.1 h
  have hmem := List.mem_of_getLast? hlast
  simp only [List.mem_filter, gradientsOf, Bool.and_eq_true, beq_iff_eq] at hmem
  obtain ⟨⟨he, hgradient⟩, hid, -⟩ := hmem
  exact ⟨e, he, hgradient, hid⟩

/-- Blanks around the identifier of a clip path, or of a gradient that no element asks for, change
nothing. A gradient that is found has the identifier without them. -/
theorem read_of_padded (root : Element) :
    (∀ (mode : Mode) (root' : Element), InStep (Padded (IsAsked root)) root root' →
      read mode root' = read mode root) ∧
    ∀ id paint, (define root).value.gradient? id = some paint →
      ∃ e ∈ root.descendants, isGradient e = true ∧ e.attribute? "id" = some id := by
  refine ⟨fun mode root' h => ?_, fun _ _ => exists_of_gradient?⟩
  have hsteps : InStep (ReadsAlike (IsAsked root)) root root' :=
    h.readsAlike (fun _ _ he => looksAlike_of_padded he) (fun _ _ he => id?_of_padded he)
      (fun _ _ _ he => gradientId_of_padded he) fun e he id hid => ⟨e, he, hid⟩
  exact read_of_counterparts hsteps mode

/-- A path with a gradient and a clip, and another gradient that nothing asks for. -/
def paintedBy (clip gradient spare : String) : Element :=
  ⟨"svg", [], [
    ⟨"clipPath", [⟨none, "id", clip⟩], [⟨"path", [⟨none, "d", "z"⟩], []⟩]⟩,
    ⟨"linearGradient", [⟨none, "id", gradient⟩], [⟨"stop", [], []⟩]⟩,
    ⟨"linearGradient", [⟨none, "id", spare⟩], [⟨"stop", [], []⟩]⟩,
    ⟨"path", [⟨none, "d", "z"⟩, ⟨none, "fill", "url(#shade)"⟩, ⟨none, "clip-path", "url(#corner)"⟩],
      []⟩]⟩

/-- The document in which the clip path and one of the gradients are asked for. -/
def painted : Element :=
  paintedBy "corner" "shade" "spare"

theorem inStep_painted : InStep (Padded (IsAsked painted)) painted
    (paintedBy " corner " "shade" "spare ") := by
  have hstop : Counterparts (Padded (IsAsked painted)) (fun _ => False) [⟨"stop", [], []⟩]
      [⟨"stop", [], []⟩] :=
    .cons (.same rfl rfl) .nil .nil
  refine .cons (.same rfl rfl) (.cons ?_ (.cons (.same rfl rfl) .nil .nil)
    (.cons (.same rfl rfl) hstop (.cons ?_ hstop (.cons (.same rfl rfl) .nil .nil)))) .nil
  · exact .clip rfl ⟨rfl, rfl⟩ rfl rfl (by decide)
  · exact .gradient rfl ⟨rfl, rfl⟩ rfl rfl (by decide) (by decide +kernel) (by decide +kernel)

theorem read_of_padded_painted :
    InStep (Padded (IsAsked painted)) painted (paintedBy " corner " "shade" "spare ") ∧
      read .strict (paintedBy " corner " "shade" "spare ") = read .strict painted ∧
      ((define painted).value.gradient? "shade").isSome = true ∧
      ∃ e ∈ painted.descendants, isGradient e = true ∧ e.attribute? "id" = some "shade" := by
  have hfound : ((define painted).value.gradient? "shade").isSome = true := by
    rw [gradient?_of_chains, Option.isSome_map]
    rfl
  obtain ⟨paint, hpaint⟩ := Option.isSome_iff_exists.1 hfound
  exact ⟨inStep_painted, (read_of_padded painted).1 .strict _ inStep_painted, hfound,
    (read_of_padded painted).2 "shade" paint hpaint⟩

/-- Blanks around the identifier of a gradient lose it for the paths that ask for it. -/
theorem padding_loses_gradient :
    trimmed " shade" = "shade" ∧
      ∃ drawing drawing', read .strict painted = .ok drawing ∧
        read .strict (paintedBy "corner" " shade" "spare") = .ok drawing' ∧
        drawing'.icon.nodes ≠ drawing.icon.nodes := by
  have hfault : firstFault? (survey painted).notices = none := by decide +kernel
  have hfault' : firstFault? (survey (paintedBy "corner" " shade" "spare")).notices = none := by
    decide +kernel
  refine ⟨by decide, _, _, read_strict_of_none rfl hfault, read_strict_of_none rfl hfault',
    fun hnodes => ?_⟩
  have hstops := congrArg (fun nodes => (Node.outlinesOf nodes).map fun outline =>
    outline.fill.map fun paint => paint.stops.isEmpty) hnodes
  revert hstops
  decide +kernel

end VectorIcon.Svg
