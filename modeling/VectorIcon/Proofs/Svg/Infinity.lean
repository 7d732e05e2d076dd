import VectorIcon.Proofs.Affine.Finite
import VectorIcon.Proofs.Fallible
import VectorIcon.Proofs.Svg.Finite

/-!
# Where the infinities of an icon come from

A number that is read is finite, but what is computed from such numbers may be none. `infinities_of_parse`: the
infinities of an icon are those of the shapes and of the transforms that it comes from, and it has none exactly
when the sides of these shapes are below the limit of doubles and these transforms are bounded.

1. A number that is not finite is never one of a frame that does nothing (`mem_numbers_reduced`), so that it is
   enough to look at what a document shows.
2. The numbers of the parts of an icon are those of what they draw, with the frames around it. The groups of a
   well-formed icon hold paths, so that no frame is lost (`mem_numbers_drawn`).
3. What a document shows has the numbers of the elements that outline and frame it (`mem_numbers_shown`).
-/

namespace VectorIcon.Svg

open Markup Icon Number Kotlin

/-! ## Numbers -/

/-- All numbers of an icon. -/
def allNumbers (icon : Icon) : List Float :=
  iconNumbers icon ++ icon.outlines.flatMap unwrittenNumbers

/-- The numbers of the commands of an element. -/
def commandsNumbers (e : Element) : List Float :=
  (commandsOf e).flatMap commandNumbers

/-- The numbers of a frame. -/
def Frame.numbers (f : Frame) : List Float :=
  f.params.numbers ++ f.clip.flatMap commandNumbers

/-- The numbers of something drawn, with those of the frames around it. -/
def Drawn.numbers (x : Drawn) : List Float :=
  x.commands.flatMap commandNumbers ++ x.frames.flatMap Frame.numbers

variable {v : Float}

theorem isFinite_of_isPlain {f : Frame} (h : f.isPlain = true) : ∀ w ∈ f.numbers, isFinite w = true := by
  have hzero : isFinite 0 = true := by decide
  have hone : isFinite 1 = true := by decide
  obtain ⟨hparams, hclip⟩ := Bool.and_eq_true_iff.1 h
  simp only [Affine.Params.isIdentity, Bool.and_eq_true] at hparams
  obtain ⟨⟨⟨⟨hx, hy⟩, hscaleX⟩, hscaleY⟩, hrotation⟩ := hparams
  rw [Frame.numbers, List.isEmpty_iff.1 hclip, List.flatMap_nil, List.append_nil]
  simp only [Affine.Params.numbers, List.forall_mem_cons]
  exact ⟨isFinite_of_beq hrotation hzero, isFinite_of_beq hscaleX hone, isFinite_of_beq hscaleY hone,
    isFinite_of_beq hx hzero, isFinite_of_beq hy hzero, List.forall_mem_nil _⟩

/-- Frames that do nothing have finite numbers. -/
theorem mem_numbers_reduced (hv : isFinite v = false) (x : Drawn) : v ∈ x.reduced.numbers ↔ v ∈ x.numbers := by
  have heffective : v ∈ (effective x.frames).flatMap Frame.numbers ↔ v ∈ x.frames.flatMap Frame.numbers := by
    simp only [effective, List.mem_flatMap, List.mem_filter]
    constructor
    · rintro ⟨f, ⟨hf, -⟩, hvf⟩
      exact ⟨f, hf, hvf⟩
    · rintro ⟨f, hf, hvf⟩
      refine ⟨f, ⟨hf, ?_⟩, hvf⟩
      by_contra hplain
      rw [Bool.not_eq_true, Bool.not_eq_false'] at hplain
      rw [isFinite_of_isPlain hplain v hvf] at hv
      cases hv
  simp only [Drawn.numbers, Drawn.reduced, List.mem_append, heffective]

/-! ## Parts -/

theorem mem_numbers_groupFrame (hv : isFinite v = false) {p : Placement} (h : p.IsWellFormed) :
    v ∈ (groupFrame p).numbers ↔ v ∈ placementNumbers p := by
  have hne : v ≠ 0 := by
    rintro rfl
    exact absurd hv (by decide)
  obtain ⟨hx, hy⟩ := h.pivot
  simp [Frame.numbers, Affine.Params.numbers, groupFrame, placementNumbers, hx, hy, hne]

/-- The number is one of a frame around, of a path or of a group. -/
def Occurs (v : Float) (outer : List Frame) (outlines : List Outline) (placements : List Placement) : Prop :=
  v ∈ outer.flatMap Frame.numbers ∨ (∃ o ∈ outlines, v ∈ o.commands.flatMap commandNumbers) ∨
    ∃ p ∈ placements, v ∈ placementNumbers p

theorem occurs_append {outer : List Frame} {os os' : List Outline} {ps ps' : List Placement} :
    Occurs v outer (os ++ os') (ps ++ ps') ↔ Occurs v outer os ps ∨ Occurs v outer os' ps' := by
  simp only [Occurs, List.mem_append, or_and_right, exists_or]
  grind

theorem mem_numbers_drawnOf {outer : List Frame} {ns : List Node} (hne : ns ≠ [])
    (h : ∀ n ∈ ns, (∃ x ∈ drawn outer n, v ∈ x.numbers) ↔ Occurs v outer n.outlines n.placements) :
    (∃ x ∈ drawnOf outer ns, v ∈ x.numbers) ↔ Occurs v outer (Node.outlinesOf ns) (Node.placementsOf ns) := by
  induction ns with
  | nil => exact absurd rfl hne
  | cons n rest ih =>
    obtain ⟨hn, hrest⟩ := List.forall_mem_cons.1 h
    cases rest with
    | nil => simpa [drawnOf, Node.outlinesOf, Node.placementsOf] using hn
    | cons m rest =>
      rw [drawnOf, Node.outlinesOf, Node.placementsOf, occurs_append, ← hn,
        ← ih (List.cons_ne_nil m rest) hrest]
      simp only [List.mem_append, or_and_right, exists_or]

/-- The numbers of what a part draws are those of its paths, of its groups and of the frames around. -/
theorem mem_numbers_drawn (hv : isFinite v = false) {n : Node} (h : n.IsWellFormed) (outer : List Frame) :
    (∃ x ∈ drawn outer n, v ∈ x.numbers) ↔ Occurs v outer n.outlines n.placements := by
  induction h generalizing outer with
  | path _ => simp [drawn, Drawn.numbers, Node.outlines, Node.placements, Occurs, or_comm]
  | @group p children hp hne _ _ ih =>
    rw [drawn, mem_numbers_drawnOf hne fun n hn => ih n hn _]
    simp only [Occurs, Node.outlines, Node.placements, List.flatMap_append, List.flatMap_singleton,
      List.mem_append, List.mem_cons, exists_eq_or_imp, mem_numbers_groupFrame hv hp]
    rw [or_assoc, or_left_comm (a := v ∈ placementNumbers p)]

/-! ## The walk -/

/-- A path of an icon is a path that some element styles. -/
def IsStyled (d : Definitions) (o : Outline) : Prop :=
  ∃ e commands, o = (styled d e commands).value

theorem outlinesOf_append (ns ns' : List Node) :
    Node.outlinesOf (ns ++ ns') = Node.outlinesOf ns ++ Node.outlinesOf ns' := by
  induction ns with
  | nil => rfl
  | cons n rest ih => rw [List.cons_append, Node.outlinesOf, Node.outlinesOf, ih, List.append_assoc]

theorem isStyled_leaf (d : Definitions) (e : Element) (commands : List (Path.Command Float)) :
    ∀ o ∈ Node.outlinesOf (leaf d e commands).value, IsStyled d o := by
  have hstyled : IsStyled d (styled d e commands).value := ⟨e, commands, rfl⟩
  cases hempty : commands.isEmpty with
  | true =>
    rw [leaf, if_pos hempty]
    exact List.forall_mem_nil _
  | false =>
    rw [value_leaf hempty]
    split <;> simpa [Node.outlinesOf, Node.outlines] using hstyled

theorem outlinesOf_grouped (d : Definitions) (e : Element) (ns : List Node) :
    Node.outlinesOf (grouped d e ns).value = Node.outlinesOf ns := by
  cases ns with
  | nil => rfl
  | cons n rest =>
    rw [value_grouped rfl]
    split
    · rfl
    · exact List.append_nil _

mutual

theorem isStyled_walk (d : Definitions) :
    ∀ e : Element, ∀ o ∈ Node.outlinesOf (walk d e).value, IsStyled d o
  | ⟨name, attributes, children⟩ => by
    let e : Element := ⟨name, attributes, children⟩
    have hchildren := isStyled_walkAll d children
    show ∀ o ∈ Node.outlinesOf (walk d e).value, IsStyled d o
    rw [walk_eq]
    split
    · exact List.forall_mem_nil _
    · cases Role.ofTag e.name with
      | path => exact isStyled_leaf d e _
      | shape => exact isStyled_leaf d e _
      | group =>
        show ∀ o ∈ Node.outlinesOf (grouped d e (walkAll d children).value).value, IsStyled d o
        rwa [outlinesOf_grouped]
      | silent => exact List.forall_mem_nil _
      | container => exact hchildren

/-- All paths that the walk over elements finds are styled. -/
theorem isStyled_walkAll (d : Definitions) :
    ∀ es : List Element, ∀ o ∈ Node.outlinesOf (walkAll d es).value, IsStyled d o
  | [] => List.forall_mem_nil _
  | e :: rest => by
    show ∀ o ∈ Node.outlinesOf ((walk d e).value ++ (walkAll d rest).value), IsStyled d o
    rw [outlinesOf_append]
    exact List.forall_mem_append.2 ⟨isStyled_walk d e, isStyled_walkAll d rest⟩

end

/-! ## Sources -/

/-- The paths and shapes of the clip that an element refers to. -/
def clipSources (root e : Element) : List Element :=
  (((property? e "clip-path").bind referencedId?).bind fun id => (clipElements root).reverse.lookup id).elim []
    fun clip => clipDrawablesOf clip.children

/-- The group elements around a site, and the element that stands there. -/
def Site.framing (s : Site) : List Element :=
  s.above.filter (·.name == "g") ++ [s.element]

/-- The sites at which something is drawn. -/
def drawnSites (root : Element) : List Site :=
  (sitesOf [] root.children).filter fun s => s.isReached && !(commandsOf s.element).isEmpty

/-- The elements whose transforms and clips get into an icon. -/
def framingElements (root : Element) : List Element :=
  (drawnSites root).flatMap Site.framing

/-- The elements whose commands get into an icon: what is drawn, and what the clips around it hold. -/
def outliningElements (root : Element) : List Element :=
  (drawnSites root).map Site.element ++ (framingElements root).flatMap (clipSources root)

theorem clip_elementFrame (root e : Element) :
    (elementFrame (define root).value e).clip = (clipSources root e).flatMap commandsOf := by
  have hfound (id : String) : (define root).value.clip? id =
      ((clipElements root).reverse.lookup id).map fun clip => (clipDrawablesOf clip.children).flatMap commandsOf := by
    simp only [← value_clipParts]
    rw [clip?_define, clipEntries, ← List.map_reverse]
    exact lookup_map_snd (fun clip : Element => (clipParts clip.children).value) _ id
  unfold elementFrame clipOf clipSources
  cases (property? e "clip-path").bind referencedId? with
  | none => rfl
  | some id =>
    dsimp only
    rw [hfound, Option.bind_some]
    cases (clipElements root).reverse.lookup id <;> rfl

/-- The numbers of the frame of an element. -/
theorem mem_numbers_elementFrame (root e : Element) :
    v ∈ (elementFrame (define root).value e).numbers ↔
      v ∈ (transformParams e).value.numbers ∨ ∃ c ∈ clipSources root e, v ∈ commandsNumbers c := by
  rw [Frame.numbers, clip_elementFrame, List.flatMap_assoc, List.mem_append, List.mem_flatMap]
  rfl

theorem mem_numbers_site (root : Element) (s : Site) :
    v ∈ (s.drawn (define root).value).numbers ↔
      v ∈ commandsNumbers s.element ∨ ∃ e ∈ s.framing, v ∈ (elementFrame (define root).value e).numbers := by
  have hframes : (s.drawn (define root).value).frames = s.framing.map (elementFrame (define root).value) := by
    rw [Site.framing, List.map_append]
    rfl
  rw [Drawn.numbers, hframes, List.flatMap_map, List.mem_append, List.mem_flatMap (b := v) (l := s.framing)]
  rfl

theorem shown_eq_map (root : Element) :
    shown (define root).value (sitesOf [] root.children) =
      (drawnSites root).map (Site.drawn (define root).value) := by
  rw [shown, drawnSites, List.filter_map, List.filter_filter]
  simp only [Function.comp_def, Bool.and_comm]
  rfl

/-- The numbers of what a document shows are those of the elements that outline and frame it. -/
theorem mem_numbers_shown (root : Element) :
    (∃ x ∈ shown (define root).value (sitesOf [] root.children), v ∈ x.numbers) ↔
      (∃ e ∈ outliningElements root, v ∈ commandsNumbers e) ∨
        ∃ e ∈ framingElements root, v ∈ (transformParams e).value.numbers := by
  simp only [shown_eq_map, List.mem_map, exists_exists_and_eq_and, mem_numbers_site, mem_numbers_elementFrame,
    outliningElements, framingElements, List.mem_append, or_and_right, exists_or, and_or_left, exists_mem_flatMap]
  rw [or_assoc, or_comm (a := ∃ s ∈ drawnSites root, ∃ e ∈ s.framing, v ∈ (transformParams e).value.numbers)]

/-! ## Icons -/

theorem exists_mem_reduced (hv : isFinite v = false) (xs : List Drawn) :
    (∃ x ∈ xs, v ∈ x.numbers) ↔ ∃ x ∈ xs.map Drawn.reduced, v ∈ x.numbers := by
  simp only [List.mem_map, exists_exists_and_eq_and, mem_numbers_reduced hv]

/-- The sizes, the paints and the lines of an icon are finite. -/
theorem mem_allNumbers_survey (root : Element) (hv : isFinite v = false) :
    v ∈ allNumbers (survey root).value ↔
      Occurs v [] (survey root).value.outlines (survey root).value.placements := by
  have hsizes : v ∉ [(survey root).value.width, (survey root).value.height,
      (survey root).value.viewportWidth, (survey root).value.viewportHeight] := by
    have hwidth := isSize_readSize (root.attribute? "width")
    have hheight := isSize_readSize (root.attribute? "height")
    have hviewport := isSize_viewport (root.attribute? "viewBox") hwidth hheight
    have hsizes : ∀ w ∈ [(survey root).value.width, (survey root).value.height,
        (survey root).value.viewportWidth, (survey root).value.viewportHeight], Icon.isSize w = true := by
      simp only [List.forall_mem_cons]
      exact ⟨hwidth, hheight, hviewport.1, hviewport.2, nofun⟩
    intro hmem
    rw [(isSize_iff.1 (hsizes v hmem)).1] at hv
    cases hv
  have houtline : ∀ o ∈ (survey root).value.outlines,
      (v ∈ outlineNumbers o ∨ v ∈ unwrittenNumbers o ↔ v ∈ o.commands.flatMap commandNumbers) := by
    intro o ho
    obtain ⟨e, commands, rfl⟩ := isStyled_walkAll (define root).value root.children o ho
    rw [← List.mem_append, mem_numbers_styled root e hv, commands_styled]
  have houtlines : v ∈ (survey root).value.outlines.flatMap outlineNumbers ∨
      v ∈ (survey root).value.outlines.flatMap unwrittenNumbers ↔
        ∃ o ∈ (survey root).value.outlines, v ∈ o.commands.flatMap commandNumbers := by
    rw [List.mem_flatMap, List.mem_flatMap, ← exists_or]
    refine exists_congr fun o => ?_
    rw [← and_or_left]
    exact and_congr_right (houtline o)
  rw [allNumbers, iconNumbers, List.mem_append, List.mem_append, List.mem_append, or_iff_right hsizes,
    or_right_comm, houtlines, List.mem_flatMap, Occurs, List.flatMap_nil, or_iff_right List.not_mem_nil]

/-- An infinity of an icon is a number of the elements that outline and frame its paths, and the other way
round. -/
theorem mem_allNumbers_iff (root : Element) (hv : isFinite v = false) :
    v ∈ allNumbers (survey root).value ↔
      (∃ e ∈ outliningElements root, v ∈ commandsNumbers e) ∨
        ∃ e ∈ framingElements root, v ∈ (transformParams e).value.numbers := by
  have hopen : ([] : List Element).any isBlocked = false := rfl
  have hdrawn : (drawnOf [] (survey root).value.nodes).map Drawn.reduced =
      (shown (define root).value (sitesOf [] root.children)).map Drawn.reduced := by
    rw [nodes_survey]
    exact drawn_walkAll hopen rfl root.children
  have hwell : ∀ n ∈ (survey root).value.nodes, n.IsWellFormed := by
    rw [nodes_survey]
    exact isWellFormed_walkAll root root.children
  rw [mem_allNumbers_survey root hv, ← mem_numbers_shown, exists_mem_reduced hv, ← hdrawn, ← exists_mem_reduced hv]
  cases hnodes : (survey root).value.nodes with
  | nil => simp [Occurs, Icon.outlines, Icon.placements, hnodes, drawnOf, Node.outlinesOf, Node.placementsOf]
  | cons n rest =>
    rw [Icon.outlines, Icon.placements, hnodes]
    rw [hnodes] at hwell
    exact (mem_numbers_drawnOf (List.cons_ne_nil n rest) fun m hm => mem_numbers_drawn hv (hwell m hm) []).symm

/-- The transform of an element is a map with finite parameters. -/
def HasBoundedTransform (e : Element) : Prop :=
  ∀ text ∈ e.attribute? "transform", (Affine.FunctionList.parse text).matrix.IsBounded

theorem isFinite_transformParams_iff (e : Element) :
    (∀ w ∈ (transformParams e).value.numbers, isFinite w = true) ↔ HasBoundedTransform e := by
  unfold transformParams HasBoundedTransform
  cases e.attribute? "transform" with
  | none =>
    refine iff_of_true ?_ nofun
    decide
  | some text =>
    refine (Affine.isFinite_params_iff _).trans ⟨fun hbounded _ htext => ?_, fun hall => hall text rfl⟩
    cases htext
    exact hbounded

/-- All numbers that are read are finite, and so are all numbers of an icon but for those that are computed
after reading: an infinity of an icon is a side of a shape or a parameter of a transform. There is none exactly
when every shape that is drawn or that clips something drawn has its sides below the limit of doubles, and every
transform around is bounded. -/
theorem infinities_of_parse {mode : Mode} {text : String} {drawing : Drawing}
    (h : parse mode text = .ok drawing) :
    ∃ root, Markup.parse text = .ok root ∧
      (∀ v, isFinite v = false →
        (v ∈ allNumbers drawing.icon ↔
          (∃ e ∈ outliningElements root, v ∈ commandsNumbers e) ∨
            ∃ e ∈ framingElements root, v ∈ (transformParams e).value.numbers)) ∧
      ((∀ v ∈ allNumbers drawing.icon, isFinite v = true) ↔
        (∀ e ∈ outliningElements root, Fits e) ∧ ∀ e ∈ framingElements root, HasBoundedTransform e) := by
  obtain ⟨root, hroot, hread⟩ := exists_root_of_parse h
  have hmem {v : Float} (hv : isFinite v = false) := mem_allNumbers_iff root hv
  rw [icon_of_read hread]
  refine ⟨root, hroot, fun v hv => hmem hv, ?_⟩
  simp only [← areFinite_commandsOf_iff, ← isFinite_transformParams_iff]
  constructor
  · intro hall
    have hfinite {v : Float} (hv : (∃ e ∈ outliningElements root, v ∈ commandsNumbers e) ∨
        ∃ e ∈ framingElements root, v ∈ (transformParams e).value.numbers) : isFinite v = true := by
      by_contra hnot
      exact hnot (hall v ((hmem (Bool.eq_false_of_not_eq_true hnot)).2 hv))
    exact ⟨fun e he v hv => hfinite (.inl ⟨e, he, hv⟩), fun e he v hv => hfinite (.inr ⟨e, he, hv⟩)⟩
  · rintro ⟨hcommands, hparams⟩ v hv
    by_contra hnot
    rcases (hmem (Bool.eq_false_of_not_eq_true hnot)).1 hv with ⟨e, he, hve⟩ | ⟨e, he, hve⟩
    · exact hnot (hcommands e he v hve)
    · exact hnot (hparams e he v hve)

/-- A drawing near the limit of doubles, with a clip. -/
def largeText : String :=
  "<svg><clipPath id=\"c\"><circle cx=\"-1e308\" r=\"7e307\"/></clipPath><g clip-path=\"url(#c)\">" ++
    "<rect x=\"1e308\" width=\"7e307\" height=\"1\" rx=\"1\"/><path d=\"M1e308 0h1e308\"/></g></svg>"

theorem infinities_of_parse_large :
    ∃ drawing, parse .strict largeText = .ok drawing ∧ ∀ v ∈ allNumbers drawing.icon, isFinite v = true := by
  have hread : ((parse .strict largeText).toOption.map fun _ => true) = some true := by decide +kernel
  have hsources : (Markup.parse largeText).toOption.map (fun root =>
      (outliningElements root).all (fun e => decide (Fits e)) &&
        (framingElements root).all fun e => e.attribute? "transform" == none) = some true := by
    decide +kernel
  obtain ⟨drawing, hparse, -⟩ := exists_of_toOption_map hread
  obtain ⟨root, hroot, -, hiff⟩ := infinities_of_parse hparse
  rw [hroot] at hsources
  obtain ⟨hfits, hframing⟩ := Bool.and_eq_true_iff.1 (Option.some.inj hsources)
  refine ⟨drawing, hparse, hiff.2 ⟨fun e he => of_decide_eq_true (List.all_eq_true.1 hfits e he), fun e he => ?_⟩⟩
  intro text htext
  rw [eq_of_beq (List.all_eq_true.1 hframing e he)] at htext
  cases htext

/-- A drawing in which the right side of a rectangle is beyond the limit of doubles. -/
def wideText : String :=
  "<svg><rect x=\"1.7e308\" width=\"1.7e308\" height=\"1\"/></svg>"

/-- The right side of a rectangle gets into the icon as an infinity. -/
theorem infinity_of_wideText :
    ∃ drawing, parse .strict wideText = .ok drawing ∧ ∃ v ∈ allNumbers drawing.icon, isFinite v = false := by
  have hread : (parse .strict wideText).toOption.map (fun drawing =>
      (allNumbers drawing.icon).any fun v => !isFinite v) = some true := by decide +kernel
  obtain ⟨drawing, hparse, hany⟩ := exists_of_toOption_map hread
  obtain ⟨v, hv, hinfinite⟩ := List.any_eq_true.1 hany
  exact ⟨drawing, hparse, v, hv, by simpa using hinfinite⟩

end VectorIcon.Svg
