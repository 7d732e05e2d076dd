import VectorIcon.Proofs.Number.Order
import VectorIcon.Proofs.Svg.Rearrangement

/-!
# Well-formed icons

Whatever a document says, the icon that is read from it is one that can be written out: it has a size,
its groups hold something, its paths draw something, and every number that has a range lies in it
(`isWellFormed_of_parse`).

1. The stops of a gradient have clamped offsets, and a gradient without stops is not defined
   (`isWellFormed_of_gradient?`).
2. A path is well-formed whatever its properties are (`isWellFormed_styled`).
3. Each step of the walk puts well-formed parts together to well-formed parts (`isWellFormed_walk`).
-/

namespace VectorIcon

open Number

namespace Icon

/-- A paint is one color, or a gradient that has stops, all of them between its ends. -/
structure Paint.IsWellFormed (p : Paint) : Prop where
  stops : (∃ color, p = .solid color) ∨ p.stops ≠ []
  offsets : ∀ s ∈ p.stops, 0 ≤ s.offset ∧ s.offset ≤ 1

/-- A path with a name, commands, good paints and a line that can be drawn. -/
structure Outline.IsWellFormed (o : Outline) : Prop where
  name : ∃ name, o.name = some name ∧ name ≠ ""
  commands : o.commands ≠ []
  fill : ∀ p ∈ o.fill, p.IsWellFormed
  stroke : ∀ p ∈ o.stroke, p.IsWellFormed
  lineWidth : 0 ≤ o.lineWidth
  miterLimit : o.miterLimit = 4 ∨ 1 ≤ o.miterLimit
  trim : o.trimStart = 0 ∧ o.trimEnd = 1 ∧ o.trimOffset = 0

/-- The placement of a group with a name, around the origin. -/
structure Placement.IsWellFormed (p : Placement) : Prop where
  name : ∃ name, p.name = some name ∧ name ≠ ""
  pivot : p.pivotX = 0 ∧ p.pivotY = 0

/-- A part in which every path is well-formed, and every group has children and paths. -/
inductive Node.IsWellFormed : Node → Prop
  | path {o : Outline} : o.IsWellFormed → IsWellFormed (.path o)
  | group {p : Placement} {children : List Node} : p.IsWellFormed → children ≠ [] →
      Node.outlinesOf children ≠ [] → (∀ n ∈ children, IsWellFormed n) →
      IsWellFormed (.group p children)

end Icon

/-- An icon with finite positive sizes and well-formed parts. -/
structure Icon.IsWellFormed (icon : Icon) : Prop where
  width : isFinite icon.width = true ∧ 0 < icon.width
  height : isFinite icon.height = true ∧ 0 < icon.height
  viewportWidth : isFinite icon.viewportWidth = true ∧ 0 < icon.viewportWidth
  viewportHeight : isFinite icon.viewportHeight = true ∧ 0 < icon.viewportHeight
  nodes : ∀ n ∈ icon.nodes, n.IsWellFormed

namespace Icon

theorem Node.outlines_ne_nil {n : Node} (h : n.IsWellFormed) : n.outlines ≠ [] := by
  cases h with
  | path _ => exact List.cons_ne_nil _ _
  | group _ _ houtlines _ => exact houtlines

/-- Well-formed parts have paths. -/
theorem Node.outlinesOf_ne_nil {ns : List Node} (hne : ns ≠ []) (h : ∀ n ∈ ns, n.IsWellFormed) :
    Node.outlinesOf ns ≠ [] := by
  cases ns with
  | nil => exact absurd rfl hne
  | cons n rest =>
    rw [Node.outlinesOf]
    exact List.append_ne_nil_of_left_ne_nil (Node.outlines_ne_nil (h n List.mem_cons_self)) _

/-- A group around well-formed parts is well-formed. -/
theorem Node.IsWellFormed.around {p : Placement} {ns : List Node} (hp : p.IsWellFormed)
    (hne : ns ≠ []) (h : ∀ n ∈ ns, n.IsWellFormed) : (Node.group p ns).IsWellFormed :=
  .group hp hne (Node.outlinesOf_ne_nil hne h) h

theorem isSize_iff {v : Float} : isSize v = true ↔ isFinite v = true ∧ 0 < v := by
  rw [isSize, Bool.and_eq_true, decide_eq_true_iff]

end Icon

namespace Svg

open Markup Icon

/-! ## Gradients -/

theorem isNaN_of_readFraction? {value : String} {v : Float} (h : readFraction? value = some v) :
    v.isNaN = false := by
  unfold readFraction? at h
  dsimp only at h
  split at h
  · obtain ⟨u, hu, rfl⟩ := Option.map_eq_some_iff.1 h
    exact isNaN_percent (isFinite_of_read? hu)
  · exact isNaN_of_isFinite (isFinite_of_read? h)

theorem offset_readStop (e : Element) :
    0 ≤ (readStop e).value.offset ∧ (readStop e).value.offset ≤ 1 := by
  have hoffset : (readStop e).value.offset =
      ((property? e "offset").bind readFraction?).elim 0 (clamp 0 1) := by
    unfold readStop
    cases (property? e "stop-opacity").bind readOpacity? <;> rfl
  rw [hoffset]
  cases hread : (property? e "offset").bind readFraction? with
  | none => exact ⟨by decide, by decide⟩
  | some v =>
    obtain ⟨value, -, hfraction⟩ := Option.bind_eq_some_iff.1 hread
    exact clamp_mem (by decide) (by decide) (by decide) (isNaN_of_readFraction? hfraction)

theorem value_mapM {α β : Type} (f : α → Noted β) (l : List α) :
    (l.mapM f).value = l.map fun a => (f a).value := by
  induction l with
  | nil => rfl
  | cons a l ih => rw [List.mapM_cons, Noted.value_bind, Noted.value_bind, ih]; rfl

theorem exists_readStop_of_mem_ownStops {e : Element} {s : Stop} (h : s ∈ (ownStops e).value) :
    ∃ child, s = (readStop child).value := by
  rw [ownStops, value_mapM] at h
  obtain ⟨child, -, rfl⟩ := List.mem_map.1 h
  exact ⟨child, rfl⟩

/-- Stops that are taken from another gradient are stops of that gradient. -/
theorem exists_readStop_of_mem_resolveStops {gradients : List (String × Element)} {steps : Nat}
    {e : Element} {s : Stop} (h : s ∈ (resolveStops gradients steps e).value) :
    ∃ child, s = (readStop child).value := by
  induction steps generalizing e with
  | zero => cases h
  | succ steps ih =>
    unfold resolveStops at h
    rw [Noted.value_bind] at h
    split at h
    · exact exists_readStop_of_mem_ownStops h
    · cases hnext : (gradientReference? e).bind fun id => gradients.reverse.lookup id with
      | none =>
        rw [hnext] at h
        cases h
      | some next =>
        rw [hnext] at h
        exact ih h

theorem stops_gradientPaint (e : Element) (stops : List Stop) :
    (gradientPaint e stops).stops = stops := by
  unfold gradientPaint
  dsimp only
  split <;> rfl

/-- What is found under an identifier is the paint of a gradient with stops that were read. -/
theorem exists_gradientPaint {root : Element} {id : String} {paint : Paint}
    (h : (define root).value.gradient? id = some paint) :
    ∃ e stops, paint = gradientPaint e stops ∧ stops ≠ [] ∧
      ∀ s ∈ stops, ∃ child, s = (readStop child).value := by
  rw [gradient?_define] at h
  obtain ⟨before, after, hentries, -⟩ := List.lookup_eq_some_iff.1 h
  have hmem : (id, paint) ∈ paintEntries root := by
    rw [← List.mem_reverse, hentries]
    simp
  obtain ⟨entry, -, hentry⟩ := List.mem_filterMap.1 hmem
  unfold paintOf? at hentry
  dsimp only at hentry
  split at hentry
  · cases hentry
  · next hstops =>
    cases hentry
    exact ⟨_, _, rfl, fun hnil => hstops (List.isEmpty_iff.2 hnil),
      fun s hs => exists_readStop_of_mem_resolveStops hs⟩

/-- A gradient that is found has stops, all of them between its ends. -/
theorem isWellFormed_of_gradient? {root : Element} {id : String} {paint : Paint}
    (h : (define root).value.gradient? id = some paint) : paint.IsWellFormed := by
  obtain ⟨e, stops, rfl, hne, hstops⟩ := exists_gradientPaint h
  constructor
  · rw [stops_gradientPaint]
    exact .inr hne
  · rw [stops_gradientPaint]
    intro s hs
    obtain ⟨child, rfl⟩ := hstops s hs
    exact offset_readStop child

/-! ## Paths -/

theorem isWellFormed_solid (color : Color) : (Paint.solid color).IsWellFormed :=
  ⟨.inl ⟨color, rfl⟩, nofun⟩

/-- A property asks for one color or for a gradient that is found. -/
theorem readPaint_cases {d : Definitions} {value : String} {p : Paint}
    (h : p ∈ (readPaint d value).value) :
    (∃ color, p = .solid color) ∨ ∃ id, d.gradient? id = some p := by
  unfold readPaint at h
  split at h
  · next id _ =>
    split at h
    · next hfound =>
      cases h
      exact .inr ⟨id, hfound⟩
    · cases h
      exact .inl ⟨_, rfl⟩
  · split at h
    · next color _ =>
      obtain ⟨c, -, rfl⟩ := Option.map_eq_some_iff.1 h
      exact .inl ⟨c, rfl⟩
    · cases h

/-- What a property asks for as its paint is well-formed. -/
theorem isWellFormed_readPaint (root : Element) (value : String) :
    ∀ p ∈ (readPaint (define root).value value).value, p.IsWellFormed := by
  intro p hp
  rcases readPaint_cases hp with ⟨color, rfl⟩ | ⟨id, hfound⟩
  · exact isWellFormed_solid color
  · exact isWellFormed_of_gradient? hfound

theorem name_ne_empty_of_id? {e : Element} {id : String} (h : id? e = some id) : id ≠ "" := by
  obtain ⟨-, hfull⟩ := Option.filter_eq_some_iff.1 h
  rintro rfl
  cases hfull

/-- What a path is made of, but for its commands and what cannot be wrong with it. -/
theorem fields_styled (d : Definitions) (e : Element) (commands : List (Path.Command Float)) :
    let o := (styled d e commands).value
    o.name = some ((id? e).getD e.name) ∧
      o.fill = (property? e "fill").elim (some (.solid .black)) (fun value => (readPaint d value).value) ∧
      o.stroke = (property? e "stroke").elim none (fun value => (readPaint d value).value) ∧
      (∃ width : Float, o.lineWidth = if 0 < width then width else 0) ∧
      o.miterLimit = (((property? e "stroke-miterlimit").bind fun value =>
        read? value.toList).filter fun v => decide (1 ≤ v)).getD 4 ∧
      o.trimStart = 0 ∧ o.trimEnd = 1 ∧ o.trimOffset = 0 := by
  unfold styled
  cases property? e "fill" <;> cases property? e "stroke" <;>
    exact ⟨rfl, rfl, rfl, ⟨_, rfl⟩, rfl, rfl, rfl, rfl⟩

/-- A path is well-formed whatever its properties are, when it has commands. -/
theorem isWellFormed_styled (root e : Element) {commands : List (Path.Command Float)}
    (hname : e.name ≠ "") (hcommands : commands ≠ []) :
    (styled (define root).value e commands).value.IsWellFormed := by
  obtain ⟨hown, hfill, hstroke, ⟨width, hwidth⟩, hlimit, htrim⟩ :=
    fields_styled (define root).value e commands
  constructor
  case name =>
    refine ⟨_, hown, ?_⟩
    cases hid : id? e with
    | none => exact hname
    | some id => exact name_ne_empty_of_id? hid
  case commands => rwa [commands_styled]
  case fill =>
    rw [hfill]
    cases property? e "fill" with
    | none =>
      rintro p ⟨⟩
      exact isWellFormed_solid _
    | some value => exact isWellFormed_readPaint root value
  case stroke =>
    rw [hstroke]
    cases property? e "stroke" with
    | none =>
      intro p hp
      cases hp
    | some value => exact isWellFormed_readPaint root value
  case lineWidth =>
    rw [hwidth]
    exact zero_le_positivePart width
  case miterLimit =>
    rw [hlimit]
    cases hread : ((property? e "stroke-miterlimit").bind fun value =>
        read? value.toList).filter fun v => decide (1 ≤ v) with
    | none => exact .inl rfl
    | some v => exact .inr (of_decide_eq_true (Option.filter_eq_some_iff.1 hread).2)
  case trim => exact htrim

/-! ## The walk -/

/-- The placement of an element has the name that it is given. -/
theorem isWellFormed_placement (d : Definitions) (e : Element) {name : String} (h : name ≠ "") :
    (placement d e name).value.1.IsWellFormed :=
  ⟨⟨name, rfl, h⟩, rfl, rfl⟩

theorem isWellFormed_leaf (root e : Element) (commands : List (Path.Command Float))
    (hname : e.name ≠ "") : ∀ n ∈ (leaf (define root).value e commands).value, n.IsWellFormed := by
  cases hempty : commands.isEmpty with
  | true =>
    rw [leaf, if_pos hempty]
    exact List.forall_mem_nil _
  | false =>
    have hcommands : commands ≠ [] := by
      rintro rfl
      cases hempty
    have hpath : ∀ n ∈ [Node.path (styled (define root).value e commands).value], n.IsWellFormed :=
      List.forall_mem_singleton.2 (.path (isWellFormed_styled root e hname hcommands))
    rw [value_leaf hempty]
    split
    · exact hpath
    · exact List.forall_mem_singleton.2
        (.around (isWellFormed_placement _ e (by decide)) (List.cons_ne_nil _ _) hpath)

theorem isWellFormed_grouped (d : Definitions) (e : Element) {ns : List Node}
    (h : ∀ n ∈ ns, n.IsWellFormed) : ∀ n ∈ (grouped d e ns).value, n.IsWellFormed := by
  cases hempty : ns.isEmpty with
  | true =>
    rw [grouped, if_pos hempty]
    exact List.forall_mem_nil _
  | false =>
    have hne : ns ≠ [] := by
      rintro rfl
      cases hempty
    have hname : (id? e).getD "group" ≠ "" := by
      cases hid : id? e with
      | none => decide
      | some id => exact name_ne_empty_of_id? hid
    rw [value_grouped hempty]
    split
    · exact h
    · exact List.forall_mem_singleton.2 (.around (isWellFormed_placement d e hname) hne h)

mutual

theorem isWellFormed_walk (root : Element) :
    ∀ e : Element, ∀ n ∈ (walk (define root).value e).value, n.IsWellFormed
  | ⟨name, attributes, children⟩ => by
    let e : Element := ⟨name, attributes, children⟩
    have hchildren := isWellFormed_walkAll root children
    show ∀ n ∈ (walk (define root).value e).value, n.IsWellFormed
    rw [walk_eq]
    split
    · exact List.forall_mem_nil _
    · -- an element without a tag would hold other elements, and is no path then
      have hname : Role.ofTag e.name ≠ .container → e.name ≠ "" := by
        intro hrole hempty
        rw [hempty] at hrole
        exact hrole (by decide)
      cases hrole : Role.ofTag e.name with
      | path => exact isWellFormed_leaf root e _ (hname (by rw [hrole]; nofun))
      | shape => exact isWellFormed_leaf root e _ (hname (by rw [hrole]; nofun))
      | group => exact isWellFormed_grouped _ e hchildren
      | silent => exact List.forall_mem_nil _
      | container => exact hchildren

/-- All parts that the walk over elements finds are well-formed. -/
theorem isWellFormed_walkAll (root : Element) :
    ∀ es : List Element, ∀ n ∈ (walkAll (define root).value es).value, n.IsWellFormed
  | [] => List.forall_mem_nil _
  | e :: rest => by
    rw [walkAll]
    exact List.forall_mem_append.2 ⟨isWellFormed_walk root e, isWellFormed_walkAll root rest⟩

end

/-- The icon of every document that is read is well-formed. -/
theorem isWellFormed_of_parse {mode : Mode} {text : String} {drawing : Drawing}
    (h : parse mode text = .ok drawing) : drawing.icon.IsWellFormed := by
  obtain ⟨root, -, hread⟩ := exists_root_of_parse h
  have hwidth := isSize_readSize (root.attribute? "width")
  have hheight := isSize_readSize (root.attribute? "height")
  have hviewport := isSize_viewport (root.attribute? "viewBox") hwidth hheight
  rw [icon_of_read hread]
  exact ⟨isSize_iff.1 hwidth, isSize_iff.1 hheight, isSize_iff.1 hviewport.1,
    isSize_iff.1 hviewport.2, isWellFormed_walkAll root root.children⟩

/-- A drawing without a size, with a group without a name and a negative width of a line. -/
def carelessText : String :=
  "<svg width=\"0\"><g id=\" \"><path d=\"z\" stroke-width=\"-1\"/></g></svg>"

theorem isWellFormed_careless :
    ∃ drawing, parse .strict carelessText = .ok drawing ∧ drawing.icon.IsWellFormed := by
  have hread : (parse .strict carelessText).toOption.isSome = true := by decide +kernel
  cases hparse : parse .strict carelessText with
  | error error =>
    rw [hparse] at hread
    cases hread
  | ok drawing => exact ⟨drawing, rfl, isWellFormed_of_parse hparse⟩

end Svg

end VectorIcon
