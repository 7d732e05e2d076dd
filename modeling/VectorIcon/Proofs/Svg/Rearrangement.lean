import VectorIcon.Proofs.Svg.Leniency
import VectorIcon.Proofs.Svg.Likeness

/-!
# Where definitions stand

Gradients and clip paths draw nothing where they stand, and are found by their identifiers from anywhere.
So two documents that differ only in the places of their definitions have the same parts
(`nodes_eq_of_definitions_perm`), as long as no two definitions are found by the same identifier.

1. The walk goes over a definition as if it were not there (`value_walkAll_withoutDefinitions`), and asks
   for definitions by their identifiers only (`walkAll_of_agree`).
2. A table in which no name stands twice can be put into any order (`lookup_of_perm`). This is used twice
   for gradients: among the elements that references lead to (`resolveStops_of_lookup`), and among the
   paints that are found.

The identifier of a clip path counts without the blanks around it, so identifiers that are written
differently may still be the same (`blanks_lose_clips`).
-/

namespace VectorIcon.Svg

open Markup Icon

mutual

/-- An element without the definitions in it. -/
def withoutDefinitions : Element → Element
  | ⟨name, attributes, children⟩ => ⟨name, attributes, withoutDefinitionsOf children⟩

/-- Elements without the definitions among them and in them. -/
def withoutDefinitionsOf : List Element → List Element
  | [] => []
  | e :: rest =>
    if isDefinition e then withoutDefinitionsOf rest
    else withoutDefinitions e :: withoutDefinitionsOf rest

end

/-- The clip paths of a document under their identifiers. -/
def clipElements (root : Element) : List (String × Element) :=
  (root.descendants.filter fun e => e.name == "clipPath").filterMap fun e => (id? e).map (·, e)

/-- No two gradients of a document, and no two clip paths, are found by the same identifier. -/
structure HasDistinctIds (root : Element) : Prop where
  gradients : ((gradientElements root).map Prod.fst).Nodup
  clips : ((clipElements root).map Prod.fst).Nodup

instance (root : Element) : Decidable (HasDistinctIds root) :=
  decidable_of_iff (((gradientElements root).map Prod.fst).Nodup ∧
      ((clipElements root).map Prod.fst).Nodup)
    ⟨fun h => ⟨h.1, h.2⟩, fun h => ⟨h.gradients, h.clips⟩⟩

/-- Two collections of definitions in which the same is found by every identifier. -/
structure Agree (d d' : Definitions) : Prop where
  gradient : ∀ id, d.gradient? id = d'.gradient? id
  clip : ∀ id, d.clip? id = d'.clip? id

/-! ## Tables -/

section

variable {α : Type} {l l' : List (String × α)}

/-- Every entry of a table in which no name stands twice is found. -/
theorem lookup_eq_some_iff_mem (h : (l.map Prod.fst).Nodup) {id : String} {a : α} :
    l.lookup id = some a ↔ (id, a) ∈ l := by
  induction l with
  | nil => simp
  | cons entry l ih =>
    obtain ⟨name, b⟩ := entry
    obtain ⟨hname, hrest⟩ := List.nodup_cons.1 h
    by_cases hid : id = name
    · subst hid
      have habsent : (id, a) ∉ l := by
        intro hmem
        exact hname (List.mem_map.2 ⟨_, hmem, rfl⟩)
      simp [habsent, eq_comm]
    · rw [List.lookup_cons, beq_false_of_ne hid]
      simp [ih hrest, hid]

theorem lookup_of_perm (h : l.Perm l') (hnodup : (l.map Prod.fst).Nodup) (id : String) :
    l.lookup id = l'.lookup id := by
  have hnodup' : (l'.map Prod.fst).Nodup := (h.map _).nodup_iff.1 hnodup
  refine Option.ext fun a => ?_
  rw [lookup_eq_some_iff_mem hnodup, lookup_eq_some_iff_mem hnodup', h.mem_iff]

theorem lookup_reverse_of_perm (h : l.Perm l') (hnodup : (l.map Prod.fst).Nodup) (id : String) :
    l.reverse.lookup id = l'.reverse.lookup id := by
  refine lookup_of_perm ((l.reverse_perm.trans h).trans l'.reverse_perm.symm) ?_ id
  exact ((l.reverse_perm.map Prod.fst).nodup_iff).2 hnodup

end

/-! ## Walks that ask for the same -/

theorem walkAll_of_agree {d d' : Definitions} (h : Agree d d') (es : List Element) :
    walkAll d es = walkAll d' es := by
  have hd : AgreeOn (fun _ => True) d d' :=
    ⟨fun id _ => (h.gradient id).symm, fun id => (h.clip id).symm⟩
  have hes := Counterparts.refl (fun _ => False) (fun e => drawsAlike_of_attributes_eq rfl rfl) es
  exact (walkAll_of_counterparts hd (fun _ hout => hout.elim) hes).symm

/-! ## Walks without definitions -/

theorem children_withoutDefinitions (e : Element) :
    (withoutDefinitions e).children = withoutDefinitionsOf e.children := by
  cases e
  rfl

/-- A definition draws nothing where it stands. -/
theorem walk_of_isDefinition {e : Element} (h : isDefinition e = true) (d : Definitions) :
    walk d e = pure [] := by
  have hrole : Role.ofTag e.name = .silent := by
    rcases (by simpa [isDefinition, isGradient, or_assoc] using h :
      e.name = "linearGradient" ∨ e.name = "radialGradient" ∨ e.name = "clipPath") with
      hname | hname | hname <;> rw [hname] <;> rfl
  rw [walk_eq, hrole]
  split <;> rfl

/-- What is no definition has its counterpart without definitions. -/
theorem counterparts_withoutDefinitions : ∀ es : List Element,
    Counterparts (DrawsAlike fun _ => True) (fun e => isDefinition e = true) es
      (withoutDefinitionsOf es)
  | [] => .nil
  | ⟨name, attributes, children⟩ :: rest => by
    rw [withoutDefinitionsOf]
    split
    · next h => exact .drop h (counterparts_withoutDefinitions rest)
    · refine .cons (drawsAlike_of_attributes_eq rfl rfl) ?_ (counterparts_withoutDefinitions rest)
      rw [children_withoutDefinitions]
      exact counterparts_withoutDefinitions children

/-- The walk over elements finds the same parts without the definitions among and in them. -/
theorem value_walkAll_withoutDefinitions (d : Definitions) (es : List Element) :
    (walkAll d (withoutDefinitionsOf es)).value = (walkAll d es).value := by
  have hd : AgreeOn (fun _ => True) d d := ⟨fun _ _ => rfl, fun _ => rfl⟩
  rw [walkAll_of_counterparts hd (fun _ h => walk_of_isDefinition h d)
    (counterparts_withoutDefinitions es)]

/-! ## What is found -/

/-- The stops of a gradient depend on what each reference leads to. -/
theorem resolveStops_of_lookup {gradients gradients' : List (String × Element)}
    (h : ∀ id, gradients.reverse.lookup id = gradients'.reverse.lookup id) (steps : Nat)
    (e : Element) : resolveStops gradients steps e = resolveStops gradients' steps e := by
  induction steps generalizing e with
  | zero => rfl
  | succ steps ih =>
    unfold resolveStops
    simp only [h, ih]

/-- The paint of a gradient among others under its identifier, when it has stops. -/
def paintOf? (gradients : List (String × Element)) (entry : String × Element) :
    Option (String × Paint) :=
  let stops := (resolveStops gradients chainLength entry.2).value
  if stops.isEmpty then none else some (entry.1, gradientPaint entry.2 stops)

/-- The commands of a clip path under its identifier. -/
def clipEntry (entry : String × Element) : String × List (Path.Command Float) :=
  (entry.1, (clipParts entry.2.children).value)

theorem value_foldlM {α β : Type} (f : α → β → Noted α) (l : List β) (a : α) :
    (l.foldlM f a).value = l.foldl (fun a b => (f a b).value) a := by
  induction l generalizing a with
  | nil => rfl
  | cons b l ih => rw [List.foldlM_cons, Noted.value_bind, ih, List.foldl_cons]

/-- Entries that are put in front one after the other: the latest stands first. -/
theorem foldl_front {α β δ : Type} {f : δ → α → δ} {made? : α → Option β} {front : List β → δ → δ}
    (hnil : ∀ d, front [] d = d)
    (happend : ∀ xs ys d, front xs (front ys d) = front (xs ++ ys) d)
    (h : ∀ d a, f d a = front (made? a).toList d) (l : List α) (d : δ) :
    l.foldl f d = front (l.filterMap made?).reverse d := by
  induction l generalizing d with
  | nil => exact (hnil d).symm
  | cons a l ih =>
    rw [List.foldl_cons, h, ih, happend, List.filterMap_cons]
    cases made? a <;> simp

/-- The definitions with more gradients, the latest of them first. -/
def Definitions.withGradients (entries : List (String × Paint)) (d : Definitions) : Definitions :=
  { d with gradients := entries ++ d.gradients }

/-- The definitions with more clip paths, the latest of them first. -/
def Definitions.withClips (entries : List (String × List (Path.Command Float))) (d : Definitions) :
    Definitions :=
  { d with clips := entries ++ d.clips }

/-- The paints that the gradients of a document are found as. -/
def paintEntries (root : Element) : List (String × Paint) :=
  (gradientElements root).filterMap (paintOf? (gradientElements root))

/-- The commands that the clip paths of a document are found as. -/
def clipEntries (root : Element) : List (String × List (Path.Command Float)) :=
  (clipElements root).map clipEntry

theorem value_defineGradients (root : Element) (d : Definitions) :
    (defineGradients root d).value = d.withGradients (paintEntries root).reverse := by
  unfold defineGradients
  dsimp only
  rw [value_foldlM]
  refine foldl_front (fun _ => rfl) (fun _ _ _ => ?_) (fun d entry => ?_) _ d
  · simp [Definitions.withGradients]
  · show (if (resolveStops (gradientElements root) chainLength entry.2).value.isEmpty then d
      else d.addGradient entry.1 (gradientPaint entry.2
        (resolveStops (gradientElements root) chainLength entry.2).value)) = _
    rw [paintOf?]
    split <;> rfl

theorem value_defineClips (root : Element) (d : Definitions) :
    (defineClips root d).value = d.withClips (clipEntries root).reverse := by
  have hentries : clipEntries root = (root.descendants.filter fun e => e.name == "clipPath").filterMap
      fun e => (id? e).map fun id => clipEntry (id, e) := by
    simp [clipEntries, clipElements, List.map_filterMap, Function.comp_def]
  unfold defineClips
  rw [value_foldlM, hentries]
  refine foldl_front (fun _ => rfl) (fun _ _ _ => ?_) (fun d e => ?_) _ d
  · simp [Definitions.withClips]
  · cases id? e <;> rfl

/-- What is found under an identifier in a document. -/
theorem gradient?_define (root : Element) (id : String) :
    (define root).value.gradient? id = (paintEntries root).reverse.lookup id := by
  show (defineClips root (defineGradients root {}).value).value.gradient? id = _
  rw [value_defineClips, value_defineGradients]
  simp [Definitions.gradient?, Definitions.withClips, Definitions.withGradients]

theorem clip?_define (root : Element) (id : String) :
    (define root).value.clip? id = (clipEntries root).reverse.lookup id := by
  show (defineClips root (defineGradients root {}).value).value.clip? id = _
  rw [value_defineClips, value_defineGradients]
  simp [Definitions.clip?, Definitions.withClips, Definitions.withGradients]

/-! ## Documents with the same definitions -/

section

variable {root root' : Element}

theorem gradientElements_perm (h : (definitions root).Perm (definitions root')) :
    (gradientElements root).Perm (gradientElements root') := by
  have hfilter (r : Element) :
      r.descendants.filter isGradient = (definitions r).filter isGradient := by
    rw [definitions, List.filter_filter]
    refine List.filter_congr fun e _ => ?_
    cases hgradient : isGradient e <;> simp [isDefinition, hgradient]
  rw [gradientElements, gradientElements, hfilter, hfilter]
  exact (h.filter _).filterMap _

theorem clipElements_perm (h : (definitions root).Perm (definitions root')) :
    (clipElements root).Perm (clipElements root') := by
  have hfilter (r : Element) : r.descendants.filter (fun e => e.name == "clipPath") =
      (definitions r).filter fun e => e.name == "clipPath" := by
    rw [definitions, List.filter_filter]
    refine List.filter_congr fun e _ => ?_
    cases hclip : e.name == "clipPath" <;> simp [isDefinition, hclip]
  rw [clipElements, clipElements, hfilter, hfilter]
  exact (h.filter _).filterMap _

end

/-- Only gradients have paints, each at most one. -/
theorem sublist_paintEntries (root : Element) :
    ((paintEntries root).map Prod.fst).Sublist ((gradientElements root).map Prod.fst) := by
  have hname (all : List (String × Element)) {entry : String × Element} {paint : String × Paint}
      (h : paintOf? all entry = some paint) : paint.1 = entry.1 := by
    unfold paintOf? at h
    dsimp only at h
    split at h
    · cases h
    · cases h
      rfl
  unfold paintEntries
  generalize hall : gradientElements root = all
  have hsublist (l : List (String × Element)) :
      ((l.filterMap (paintOf? all)).map Prod.fst).Sublist (l.map Prod.fst) := by
    induction l with
    | nil => exact List.Sublist.slnil
    | cons entry l ih =>
      rw [List.filterMap_cons, List.map_cons]
      cases hentry : paintOf? all entry with
      | none => exact ih.cons entry.1
      | some paint =>
        rw [List.map_cons, hname all hentry]
        exact ih.cons_cons entry.1
  exact hsublist all

section

variable {root root' : Element} (hperm : (definitions root).Perm (definitions root'))
  (hids : HasDistinctIds root)

include hperm hids

theorem paintEntries_perm : (paintEntries root).Perm (paintEntries root') := by
  have hgradients := gradientElements_perm hperm
  have hpaint : paintOf? (gradientElements root) = paintOf? (gradientElements root') := by
    funext entry
    unfold paintOf?
    rw [resolveStops_of_lookup (lookup_reverse_of_perm hgradients hids.gradients)]
  rw [paintEntries, paintEntries, hpaint]
  exact hgradients.filterMap _

/-- Documents with the same definitions find the same under each identifier. -/
theorem agree_define : Agree (define root).value (define root').value where
  gradient id := by
    rw [gradient?_define, gradient?_define]
    exact lookup_reverse_of_perm (paintEntries_perm hperm hids)
      (hids.gradients.sublist (sublist_paintEntries root)) id
  clip id := by
    have hnodup : ((clipEntries root).map Prod.fst).Nodup := by
      rw [clipEntries, List.map_map]
      exact hids.clips
    rw [clip?_define, clip?_define]
    exact lookup_reverse_of_perm ((clipElements_perm hperm).map clipEntry) hnodup id

end

/-- Two documents that are read, and become the same without their definitions, have the same parts when
they have the same definitions, in whatever order and wherever these stand, and no two of one kind are
found by the same identifier. A definition that stands in another one counts as well. -/
theorem nodes_eq_of_definitions_perm {mode mode' : Mode} {root root' : Element}
    {drawing drawing' : Drawing} (hread : read mode root = .ok drawing)
    (hread' : read mode' root' = .ok drawing')
    (hrest : withoutDefinitions root = withoutDefinitions root')
    (hperm : (definitions root).Perm (definitions root')) (hids : HasDistinctIds root) :
    drawing.icon.nodes = drawing'.icon.nodes := by
  have hchildren : withoutDefinitionsOf root.children = withoutDefinitionsOf root'.children := by
    rw [← children_withoutDefinitions, hrest, children_withoutDefinitions]
  rw [icon_of_read hread, icon_of_read hread', nodes_survey, nodes_survey,
    ← value_walkAll_withoutDefinitions _ root.children, hchildren,
    value_walkAll_withoutDefinitions _ root'.children, walkAll_of_agree (agree_define hperm hids)]

/-! ## Identifiers with blanks -/

/-- A path with a gradient that takes its stops from another one, in a clipped group. -/
def paintedGroup : Element :=
  ⟨"g", [⟨none, "clip-path", "url(#corner)"⟩], [
    ⟨"path", [⟨none, "d", "z"⟩, ⟨none, "fill", "url(#shade)"⟩], []⟩]⟩

/-- A gradient with one stop. -/
def stopsElement : Element :=
  ⟨"linearGradient", [⟨none, "id", "stops"⟩], [⟨"stop", [⟨none, "stop-color", "red"⟩], []⟩]⟩

/-- A gradient that refers to another one. -/
def shadeElement : Element :=
  ⟨"radialGradient", [⟨none, "id", "shade"⟩, ⟨none, "href", "#stops"⟩], []⟩

/-- A clip path with an identifier and path data. -/
def clipElement (id data : String) : Element :=
  ⟨"clipPath", [⟨none, "id", id⟩], [⟨"path", [⟨none, "d", data⟩], []⟩]⟩

/-- Definitions behind what asks for them, and inside of an element that is not drawn. -/
def definedBehind : Element :=
  ⟨"svg", [], [paintedGroup, shadeElement,
    ⟨"mask", [], [stopsElement, clipElement "corner" "zz"]⟩]⟩

/-- The same definitions before what asks for them, and in another order. -/
def definedBefore : Element :=
  ⟨"svg", [], [clipElement "corner" "zz", stopsElement, shadeElement, paintedGroup,
    ⟨"mask", [], []⟩]⟩

theorem nodes_eq_definedBefore :
    ∃ drawing drawing', read .strict definedBehind = .ok drawing ∧
      read .lenient definedBefore = .ok drawing' ∧ drawing.icon.nodes = drawing'.icon.nodes := by
  have hfault : firstFault? (survey definedBehind).notices = none := by decide +kernel
  have hread : read .strict definedBehind = .ok (drawingOf definedBehind) :=
    read_strict_of_none rfl hfault
  have hread' : read .lenient definedBefore = .ok (drawingOf definedBefore) := read_lenient rfl
  have hreverse : definitions definedBefore = (definitions definedBehind).reverse := rfl
  have hperm : (definitions definedBehind).Perm (definitions definedBefore) := by
    rw [hreverse]
    exact (List.reverse_perm _).symm
  exact ⟨_, _, hread, hread',
    nodes_eq_of_definitions_perm hread hread' rfl hperm (by decide +kernel)⟩

/-- A clipped group after two clip paths whose identifiers differ in a blank only. -/
def blankLast : Element :=
  ⟨"svg", [], [clipElement "corner" "z", clipElement " corner" "zz", paintedGroup]⟩

/-- The same with the clip paths in the other order. -/
def blankFirst : Element :=
  ⟨"svg", [], [clipElement " corner" "zz", clipElement "corner" "z", paintedGroup]⟩

/-- Clip paths with different identifiers are lost when the identifiers differ in blanks only. Which one
is lost depends on their order. -/
theorem blanks_lose_clips :
    withoutDefinitions blankLast = withoutDefinitions blankFirst ∧
      (definitions blankLast).Perm (definitions blankFirst) ∧
      ((definitions blankLast).map (·.attribute? "id")).Nodup ∧
      (∀ e ∈ definitions blankLast, (Element.descendantsOf e.children).filter isDefinition = []) ∧
      ∃ drawing drawing', read .strict blankLast = .ok drawing ∧
        read .strict blankFirst = .ok drawing' ∧ drawing.icon.nodes ≠ drawing'.icon.nodes := by
  have hlast : firstFault? (survey blankLast).notices = none := by decide +kernel
  have hfirst : firstFault? (survey blankFirst).notices = none := by decide +kernel
  refine ⟨rfl, List.Perm.swap .., by decide, ?_, _, _, read_strict_of_none rfl hlast,
    read_strict_of_none rfl hfirst, fun hnodes => ?_⟩
  · have hdefinitions : definitions blankLast =
        [clipElement "corner" "z", clipElement " corner" "zz"] := rfl
    rw [hdefinitions]
    exact List.forall_mem_cons.2 ⟨rfl, List.forall_mem_cons.2 ⟨rfl, nofun⟩⟩
  · have hclips := congrArg (fun nodes => (Node.placementsOf nodes).map Placement.clip) hnodes
    revert hclips
    decide +kernel

end VectorIcon.Svg
