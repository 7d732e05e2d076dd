import VectorIcon.Proofs.Svg.Size

/-!
# What a document draws, and in which order

`drawnOf_read`: the paths of an icon are what its document draws, one for one and in document order,
with the commands of their elements; and the groups around a path, from the outside in, are the group
elements around its element and the element itself, up to frames that do nothing.

1. `Node.drawn` lists the paths of an icon with the frames around them, `sites` the elements of a
   document with the elements above them. Both go in preorder.
2. Nothing below a blocked element is reached, and the walk leaves it out (`shown_below_blocked`).
3. A leaf and a group add their own frame, or add none when it does nothing
   (`drawn_leaf`, `drawn_grouped`); a reduced list of frames does not tell the difference.
4. The walk over a forest, by induction on its elements (`drawn_walk`, `drawn_walkAll`).
-/

namespace VectorIcon.Svg

open Markup Icon

/-! ## Frames -/

/-- What is done to everything inside: it is mapped and clipped. -/
structure Frame where
  params : Affine.Params Float
  pivotX : Float := 0
  pivotY : Float := 0
  clip : List (Path.Command Float)
  deriving DecidableEq

/-- Nothing is moved and nothing is clipped. -/
def Frame.isPlain (f : Frame) : Bool :=
  f.params.isIdentity && f.clip.isEmpty

/-- The frames that do something. -/
def effective (frames : List Frame) : List Frame :=
  frames.filter fun f => !f.isPlain

/-- The frame of a group of an icon. -/
def groupFrame (p : Placement) : Frame :=
  { params := ⟨p.translationX, p.translationY, p.scaleX, p.scaleY, p.rotation⟩
    pivotX := p.pivotX, pivotY := p.pivotY, clip := p.clip }

/-- The frame that an element asks for; a reference that points at nothing asks for no clip. -/
def elementFrame (d : Definitions) (e : Element) : Frame :=
  { params := (transformParams e).value, clip := (clipOf d e).value.getD [] }

/-- Something drawn: its commands, and the frames around it from the outside in. -/
structure Drawn where
  commands : List (Path.Command Float)
  frames : List Frame
  deriving DecidableEq

/-- What is drawn, without the frames that do nothing. -/
def Drawn.reduced (x : Drawn) : Drawn :=
  { x with frames := effective x.frames }

/-! ## Preorder -/

mutual

/-- The paths of a part inside of the given frames. -/
def drawn (outer : List Frame) : Node → List Drawn
  | .path outline => [⟨outline.commands, outer⟩]
  | .group placement children => drawnOf (outer ++ [groupFrame placement]) children

/-- The paths of a list of parts inside of the given frames. -/
def drawnOf (outer : List Frame) : List Node → List Drawn
  | [] => []
  | node :: rest => drawn outer node ++ drawnOf outer rest

end

/-- An element and the elements above it, the outermost first. -/
structure Site where
  above : List Element
  element : Element

mutual

/-- An element and the elements in it, in document order, below the given ones. -/
def sites (above : List Element) : Element → List Site
  | ⟨name, attributes, children⟩ =>
    ⟨above, ⟨name, attributes, children⟩⟩ :: sitesOf (above ++ [⟨name, attributes, children⟩]) children

/-- The elements of a list and in it, in document order, below the given ones. -/
def sitesOf (above : List Element) : List Element → List Site
  | [] => []
  | e :: rest => sites above e ++ sitesOf above rest

end

/-! ## Elements that are reached -/

/-- The element is a path or a basic shape. -/
def isDrawable (e : Element) : Bool :=
  e.name == "path" || shapeTags.contains e.name

/-- The element is hidden, cannot be drawn, or only defines or describes something. -/
def isBarred (e : Element) : Bool :=
  isHidden e || (Category.ofTag? e.name).isSome || silentTags.contains e.name

/-- Nothing inside of the element is reached. -/
def isBlocked (e : Element) : Bool :=
  isBarred e || isDrawable e

/-- The element draws where it stands. -/
def Site.isReached (s : Site) : Bool :=
  isDrawable s.element && !isBarred s.element && !s.above.any isBlocked

/-- The commands of a drawable; path data with a fault has none. -/
def commandsOf (e : Element) : List (Path.Command Float) :=
  if e.name = "path" then (Path.parse ((e.attribute? "d").getD "")).toOption.getD []
  else shapeCommands e

/-- The frames of the group elements among some elements. -/
def framesOf (d : Definitions) (above : List Element) : List Frame :=
  (above.filter (·.name == "g")).map (elementFrame d)

/-- What an element draws: the group elements above it and the element itself are its frames. -/
def Site.drawn (d : Definitions) (s : Site) : Drawn :=
  ⟨commandsOf s.element, framesOf d s.above ++ [elementFrame d s.element]⟩

/-- What is drawn at the sites that are reached and have commands. -/
def shown (d : Definitions) (l : List Site) : List Drawn :=
  ((l.filter Site.isReached).map (Site.drawn d)).filter fun x => !x.commands.isEmpty

theorem sites_eq (above : List Element) (e : Element) :
    sites above e = ⟨above, e⟩ :: sitesOf (above ++ [e]) e.children := by
  cases e
  rfl

theorem shown_append (d : Definitions) (l l' : List Site) :
    shown d (l ++ l') = shown d l ++ shown d l' := by
  unfold shown
  rw [List.filter_append, List.map_append, List.filter_append]

theorem shown_eq_nil {d : Definitions} {l : List Site} (h : l.filter Site.isReached = []) :
    shown d l = [] := by
  unfold shown
  rw [h]
  rfl

theorem any_isBlocked_concat (above : List Element) (e : Element) :
    (above ++ [e]).any isBlocked = (above.any isBlocked || isBlocked e) := by
  rw [List.any_append, List.any_cons, List.any_nil, Bool.or_false]

mutual

/-- Below a blocked element nothing is reached. -/
theorem filter_sites_of_blocked {above : List Element} (h : above.any isBlocked = true) :
    ∀ e : Element, (sites above e).filter Site.isReached = []
  | ⟨name, attributes, children⟩ => by
    have hbelow : (above ++ [Element.mk name attributes children]).any isBlocked = true := by
      rw [any_isBlocked_concat, h, Bool.true_or]
    rw [sites, List.filter_cons_of_neg, filter_sitesOf_of_blocked hbelow children]
    rw [Site.isReached, h, Bool.not_true, Bool.and_false]
    exact Bool.false_ne_true

theorem filter_sitesOf_of_blocked {above : List Element} (h : above.any isBlocked = true) :
    ∀ es : List Element, (sitesOf above es).filter Site.isReached = []
  | [] => rfl
  | e :: rest => by
    rw [sitesOf, List.filter_append, filter_sites_of_blocked h e, filter_sitesOf_of_blocked h rest]
    rfl

end

/-- A blocked element draws nothing but itself. -/
theorem shown_sites_of_blocked {d : Definitions} {above : List Element} {e : Element}
    (h : isBlocked e = true) : shown d (sites above e) = shown d [⟨above, e⟩] := by
  have hbelow : (above ++ [e]).any isBlocked = true := by
    rw [any_isBlocked_concat, h, Bool.or_true]
  have hnil := shown_eq_nil (d := d) (filter_sitesOf_of_blocked hbelow e.children)
  rw [sites_eq, ← List.singleton_append, shown_append, hnil, List.append_nil]

/-- What is not drawable leaves all to the elements in it. -/
theorem shown_sites_of_not_drawable {d : Definitions} {above : List Element} {e : Element}
    (h : isDrawable e = false) :
    shown d (sites above e) = shown d (sitesOf (above ++ [e]) e.children) := by
  have hnil : shown d [⟨above, e⟩] = [] := by
    refine shown_eq_nil (List.filter_cons_of_neg ?_)
    rw [Site.isReached, h, Bool.false_and, Bool.false_and]
    exact Bool.false_ne_true
  rw [sites_eq, ← List.singleton_append, shown_append, hnil, List.nil_append]

/-- A barred element draws nothing at all. -/
theorem shown_sites_of_barred {d : Definitions} {above : List Element} {e : Element}
    (h : isBarred e = true) : shown d (sites above e) = [] := by
  rw [shown_sites_of_blocked (by rw [isBlocked, h, Bool.true_or])]
  refine shown_eq_nil (List.filter_cons_of_neg ?_)
  rw [Site.isReached, h, Bool.not_true, Bool.and_false, Bool.false_and]
  exact Bool.false_ne_true

/-- The tags of drawables are neither silent nor outside of what can be drawn. -/
theorem isBarred_of_isDrawable {e : Element} (h : isDrawable e = true) :
    isBarred e = isHidden e := by
  have hname : e.name ∈ "path" :: shapeTags := by
    simpa [isDrawable] using h
  have htags : ∀ tag ∈ "path" :: shapeTags,
      ((Category.ofTag? tag).isSome || silentTags.contains tag) = false := by decide
  rw [isBarred, Bool.or_assoc, htags e.name hname, Bool.or_false]

/-- A drawable that is reached draws its commands, if it has any. -/
theorem shown_sites_of_drawable {d : Definitions} {above : List Element} {e : Element}
    (habove : above.any isBlocked = false) (hdraw : isDrawable e = true)
    (hvisible : isHidden e = false) :
    shown d (sites above e) =
      if (commandsOf e).isEmpty then [] else [Site.drawn d ⟨above, e⟩] := by
  have hreached : Site.isReached ⟨above, e⟩ = true := by
    rw [Site.isReached, isBarred_of_isDrawable hdraw, hdraw, hvisible, habove]
    rfl
  rw [shown_sites_of_blocked (by rw [isBlocked, hdraw, Bool.or_true]), shown,
    List.filter_cons_of_pos hreached]
  by_cases hc : (commandsOf e).isEmpty = true
  · rw [if_pos hc]
    exact List.filter_cons_of_neg (by rw [Site.drawn, hc]; exact Bool.false_ne_true)
  · rw [if_neg hc]
    exact List.filter_cons_of_pos (by rw [Site.drawn]; simpa using hc)

/-! ## Parts of an icon -/

theorem drawnOf_append (outer : List Frame) (ns ns' : List Node) :
    drawnOf outer (ns ++ ns') = drawnOf outer ns ++ drawnOf outer ns' := by
  induction ns with
  | nil => rfl
  | cons n rest ih => rw [List.cons_append, drawnOf, drawnOf, ih, List.append_assoc]

theorem effective_append (fs fs' : List Frame) :
    effective (fs ++ fs') = effective fs ++ effective fs' :=
  List.filter_append ..

/-- The placement of an element is its frame under a name. -/
theorem groupFrame_placement (d : Definitions) (e : Element) (name : String) :
    groupFrame (placement d e name).value.1 = elementFrame d e := rfl

/-- What does nothing is a frame without effect. -/
theorem isPlain_of_placement {d : Definitions} {e : Element} {name : String}
    (h : (placement d e name).value.2 = true) : (elementFrame d e).isPlain = true := by
  have hand : (transformParams e).value.isIdentity = true ∧ (clipOf d e).value.isNone = true := by
    simpa [placement] using h
  have hclip : (clipOf d e).value = none := by simpa using hand.2
  rw [Frame.isPlain, elementFrame, hclip, hand.1]
  rfl

theorem effective_concat_of_isPlain {fs : List Frame} {f : Frame} (h : f.isPlain = true) :
    effective (fs ++ [f]) = effective fs := by
  rw [effective_append, effective, effective, List.filter_cons_of_neg, List.filter_nil,
    List.append_nil]
  rw [h]
  exact Bool.false_ne_true

theorem commands_styled (d : Definitions) (e : Element) (commands : List (Path.Command Float)) :
    (styled d e commands).value.commands = commands := by
  unfold styled
  cases property? e "fill" <;> cases property? e "stroke" <;> rfl

theorem value_leaf {d : Definitions} {e : Element} {commands : List (Path.Command Float)}
    (h : commands.isEmpty = false) :
    (leaf d e commands).value =
      if (placement d e "group").value.2 then [.path (styled d e commands).value]
      else [.group (placement d e "group").value.1 [.path (styled d e commands).value]] := by
  rw [leaf, if_neg (by rw [h]; exact Bool.false_ne_true)]
  by_cases hnothing : (placement d e "group").value.2 = true
  · simp only [Noted.value_bind, if_pos hnothing, Noted.value_pure]
  · simp only [Noted.value_bind, if_neg hnothing, Noted.value_pure]

theorem value_grouped {d : Definitions} {e : Element} {ns : List Node} (h : ns.isEmpty = false) :
    (grouped d e ns).value =
      if (placement d e ((id? e).getD "group")).value.2 && (id? e).isNone && ns.length ≤ 1 then ns
      else [.group (placement d e ((id? e).getD "group")).value.1 ns] := by
  rw [grouped, if_neg (by rw [h]; exact Bool.false_ne_true)]
  simp only [Noted.value_bind]
  split <;> rfl

/-- A leaf is one path inside of the frame of its element, unless it has no commands. -/
theorem drawn_leaf (d : Definitions) (e : Element) (commands : List (Path.Command Float))
    (outer : List Frame) :
    (drawnOf outer (leaf d e commands).value).map Drawn.reduced =
      if commands.isEmpty then []
      else [⟨commands, effective (outer ++ [elementFrame d e])⟩] := by
  by_cases hc : commands.isEmpty = true
  · rw [if_pos hc, leaf, if_pos hc]
    rfl
  · rw [if_neg hc, value_leaf (by simpa using hc)]
    by_cases hnothing : (placement d e "group").value.2 = true
    · rw [if_pos hnothing, effective_concat_of_isPlain (isPlain_of_placement hnothing), drawnOf,
        drawn, commands_styled]
      rfl
    · rw [if_neg hnothing, ← groupFrame_placement d e "group", drawnOf, drawnOf, drawn, drawnOf,
        drawn, commands_styled]
      rfl

/-- A group draws its parts inside of the frame of its element, whether it is made, flattened or
dropped. -/
theorem drawn_grouped {d : Definitions} {e : Element} {ns : List Node} {outer : List Frame}
    {xs : List Drawn}
    (h : ∀ inner, effective inner = effective (outer ++ [elementFrame d e]) →
      (drawnOf inner ns).map Drawn.reduced = xs) :
    (drawnOf outer (grouped d e ns).value).map Drawn.reduced = xs := by
  by_cases hns : ns.isEmpty = true
  · have hnil : ns = [] := by simpa using hns
    rw [grouped, if_pos hns, ← h _ rfl, hnil]
    rfl
  · rw [value_grouped (by simpa using hns)]
    split
    · next hflat =>
      have hnothing : (placement d e ((id? e).getD "group")).value.2 = true := by
        rw [Bool.and_eq_true, Bool.and_eq_true] at hflat
        exact hflat.1.1
      exact h outer (effective_concat_of_isPlain (isPlain_of_placement hnothing)).symm
    · rw [drawnOf, drawnOf, List.append_nil, drawn, groupFrame_placement]
      exact h _ rfl

/-! ## The walk -/

theorem walk_eq (d : Definitions) (e : Element) :
    walk d e =
      if isHidden e then pure []
      else
        match Role.ofTag e.name with
        | .path => do leaf d e (← pathCommands e)
        | .shape => do leaf d e (← checkedShapeCommands e)
        | .group => do grouped d e (← walkAll d e.children)
        | .silent => pure []
        | .container => walkAll d e.children := by
  cases e
  unfold walk
  rfl

/-- What the role of an element that is not hidden says about the element. -/
theorem role_cases {e : Element} (h : isHidden e = false) :
    (Role.ofTag e.name = .path ∧ isDrawable e = true ∧ e.name = "path") ∨
    (Role.ofTag e.name = .shape ∧ isDrawable e = true ∧ e.name ≠ "path") ∨
    (Role.ofTag e.name = .group ∧ isDrawable e = false ∧ isBarred e = false ∧ e.name = "g") ∨
    (Role.ofTag e.name = .silent ∧ isBarred e = true) ∨
    (Role.ofTag e.name = .container ∧ isDrawable e = false ∧ isBarred e = false ∧ e.name ≠ "g") := by
  by_cases hpath : e.name = "path"
  · refine .inl ⟨?_, ?_, hpath⟩
    · rw [hpath]
      rfl
    · rw [isDrawable, hpath]
      rfl
  refine .inr ?_
  by_cases hshape : shapeTags.contains e.name = true
  · refine .inl ⟨?_, ?_, hpath⟩
    · rw [Role.ofTag, if_neg hpath, if_pos hshape]
    · rw [isDrawable, hshape, Bool.or_true]
  refine .inr ?_
  have hdraw : isDrawable e = false := by
    rw [isDrawable, beq_false_of_ne hpath, Bool.false_or]
    exact Bool.eq_false_iff.2 hshape
  by_cases hgroup : e.name = "g"
  · refine .inl ⟨?_, hdraw, ?_, hgroup⟩
    · rw [hgroup]
      rfl
    · rw [isBarred, h, hgroup]
      decide
  refine .inr ?_
  by_cases hsilent : (silentTags.contains e.name || (Category.ofTag? e.name).isSome) = true
  · refine .inl ⟨?_, ?_⟩
    · rw [Role.ofTag, if_neg hpath, if_neg hshape, if_neg hgroup, if_pos hsilent]
    · rw [isBarred, Bool.or_assoc, Bool.or_comm (Category.ofTag? _).isSome, hsilent, Bool.or_true]
  · refine .inr ⟨?_, hdraw, ?_, hgroup⟩
    · rw [Role.ofTag, if_neg hpath, if_neg hshape, if_neg hgroup, if_neg hsilent]
    · rw [isBarred, h, Bool.false_or, Bool.or_comm]
      exact Bool.eq_false_iff.2 hsilent

/-- The commands that the walk gives to a leaf are those of its element. -/
theorem value_pathCommands {e : Element} (h : e.name = "path") :
    (pathCommands e).value = commandsOf e := by
  rw [pathCommands, commandsOf, if_pos h]
  cases Path.parse ((e.attribute? "d").getD "") <;> rfl

theorem value_checkedShapeCommands {e : Element} (h : e.name ≠ "path") :
    (checkedShapeCommands e).value = commandsOf e := by
  rw [checkedShapeCommands, commandsOf, if_neg h]
  by_cases hc : (shapeCommands e).isEmpty = true
  · simp only [if_pos hc, Noted.warn]
    exact (List.isEmpty_iff.1 hc).symm
  · simp only [if_neg hc, Noted.value_pure]

theorem framesOf_concat_group {d : Definitions} {above : List Element} {e : Element}
    (h : e.name = "g") : framesOf d (above ++ [e]) = framesOf d above ++ [elementFrame d e] := by
  rw [framesOf, List.filter_append, List.map_append, List.filter_cons_of_pos (by rw [h]; rfl)]
  rfl

theorem framesOf_concat_of_ne {d : Definitions} {above : List Element} {e : Element}
    (h : e.name ≠ "g") : framesOf d (above ++ [e]) = framesOf d above := by
  rw [framesOf, List.filter_append, List.filter_cons_of_neg (by simpa using h), List.filter_nil,
    List.append_nil, framesOf]

/-- A drawable inside of frames that do what the groups above it ask for. -/
theorem drawn_drawable {d : Definitions} {above : List Element} {outer : List Frame} {e : Element}
    (habove : above.any isBlocked = false)
    (houter : effective outer = effective (framesOf d above))
    (hdraw : isDrawable e = true) (hvisible : isHidden e = false) :
    (drawnOf outer (leaf d e (commandsOf e)).value).map Drawn.reduced =
      (shown d (sites above e)).map Drawn.reduced := by
  rw [drawn_leaf, shown_sites_of_drawable habove hdraw hvisible, effective_append, houter,
    ← effective_append]
  split <;> rfl

mutual

/-- The walk over an element draws what is shown at its sites. -/
theorem drawn_walk {d : Definitions} {above : List Element} {outer : List Frame}
    (habove : above.any isBlocked = false)
    (houter : effective outer = effective (framesOf d above)) :
    ∀ e : Element, (drawnOf outer (walk d e).value).map Drawn.reduced =
      (shown d (sites above e)).map Drawn.reduced
  | ⟨name, attributes, children⟩ => by
    let e : Element := ⟨name, attributes, children⟩
    show (drawnOf outer (walk d e).value).map Drawn.reduced =
      (shown d (sites above e)).map Drawn.reduced
    -- What is inside of an element that blocks nothing, when its frames are around it.
    have hinside {inner : List Frame} (hdraw : isDrawable e = false) (hbarred : isBarred e = false)
        (hinner : effective inner = effective (framesOf d (above ++ [e]))) :
        (drawnOf inner (walkAll d children).value).map Drawn.reduced =
          (shown d (sites above e)).map Drawn.reduced := by
      rw [shown_sites_of_not_drawable hdraw]
      refine drawn_walkAll ?_ hinner children
      rw [any_isBlocked_concat, habove, isBlocked, hdraw, hbarred]
      rfl
    rw [walk_eq]
    by_cases hhidden : isHidden e = true
    · rw [if_pos hhidden, shown_sites_of_barred (by rw [isBarred, hhidden]; rfl)]
      rfl
    rw [if_neg hhidden]
    have hvisible : isHidden e = false := Bool.eq_false_iff.2 hhidden
    rcases role_cases hvisible with ⟨hrole, hdraw, hname⟩ | ⟨hrole, hdraw, hname⟩ |
      ⟨hrole, hdraw, hbarred, hname⟩ | ⟨hrole, hbarred⟩ | ⟨hrole, hdraw, hbarred, hname⟩
    · rw [hrole]
      simp only [Noted.value_bind, value_pathCommands hname]
      exact drawn_drawable habove houter hdraw hvisible
    · rw [hrole]
      simp only [Noted.value_bind, value_checkedShapeCommands hname]
      exact drawn_drawable habove houter hdraw hvisible
    · rw [hrole]
      simp only [Noted.value_bind]
      refine drawn_grouped fun inner hinner => hinside hdraw hbarred ?_
      rw [hinner, framesOf_concat_group hname, effective_append, houter, ← effective_append]
    · rw [hrole, shown_sites_of_barred hbarred]
      rfl
    · rw [hrole]
      refine hinside hdraw hbarred ?_
      rw [houter, framesOf_concat_of_ne hname]

theorem drawn_walkAll {d : Definitions} {above : List Element} {outer : List Frame}
    (habove : above.any isBlocked = false)
    (houter : effective outer = effective (framesOf d above)) :
    ∀ es : List Element, (drawnOf outer (walkAll d es).value).map Drawn.reduced =
      (shown d (sitesOf above es)).map Drawn.reduced
  | [] => rfl
  | e :: rest => by
    rw [walkAll, sitesOf, shown_append, List.map_append, ← drawn_walk habove houter e,
      ← drawn_walkAll habove houter rest, ← List.map_append, ← drawnOf_append]
    rfl

end

theorem nodes_survey (root : Element) :
    (survey root).value.nodes = (walkAll (define root).value root.children).value := by
  unfold survey
  rfl

theorem exists_root_of_parse {mode : Mode} {text : String} {drawing : Drawing}
    (h : parse mode text = .ok drawing) :
    ∃ root, Markup.parse text = .ok root ∧ read mode root = .ok drawing := by
  unfold parse at h
  cases hroot : Markup.parse text with
  | error error =>
    rw [hroot] at h
    cases h
  | ok root =>
    rw [hroot] at h
    exact ⟨root, rfl, h⟩

theorem icon_of_read {mode : Mode} {root : Element} {drawing : Drawing}
    (h : read mode root = .ok drawing) : drawing.icon = (survey root).value := by
  rw [read_eq] at h
  split at h
  · cases h
  · split at h
    · cases h
    · cases h
      rfl

/-- The paths of an icon are what its document shows, one for one and in document order. Each has the
commands of its element, and the frames around it that do something are those that the group elements
above the element and the element itself ask for. -/
theorem drawnOf_read {mode : Mode} {root : Element} {drawing : Drawing}
    (h : read mode root = .ok drawing) :
    (drawnOf [] drawing.icon.nodes).map Drawn.reduced =
      (shown (define root).value (sitesOf [] root.children)).map Drawn.reduced := by
  have hopen : ([] : List Element).any isBlocked = false := rfl
  rw [icon_of_read h, nodes_survey]
  exact drawn_walkAll hopen rfl root.children

/-- A drawing with a clipped group, in which a group does nothing and a path is hidden. -/
def clippedDocument : Element :=
  ⟨"svg", [], [
    ⟨"clipPath", [⟨none, "id", "corner"⟩], [⟨"path", [⟨none, "d", "z"⟩], []⟩]⟩,
    ⟨"g", [⟨none, "clip-path", "url(#corner)"⟩], [
      ⟨"g", [], [⟨"path", [⟨none, "d", "Zz"⟩], []⟩]⟩,
      ⟨"path", [⟨none, "d", "Z"⟩, ⟨none, "display", "none"⟩], []⟩]⟩]⟩

theorem drawnOf_read_clippedDocument :
    ∃ drawing, read .strict clippedDocument = .ok drawing ∧
      (drawnOf [] drawing.icon.nodes).map Drawn.reduced =
        [⟨[.close, .close], [{ params := .identity, clip := [.close] }]⟩] := by
  have hfault : firstFault? (survey clippedDocument).notices = none := by decide +kernel
  have hread : read .strict clippedDocument = .ok
      ⟨(survey clippedDocument).value,
        .ofReports ((survey clippedDocument).notices.map Notice.toWarning)⟩ := by
    rw [read_eq, if_neg (by decide)]
    simp only [hfault]
  refine ⟨_, hread, (drawnOf_read hread).trans ?_⟩
  decide +kernel

end VectorIcon.Svg
