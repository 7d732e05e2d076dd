import VectorIcon.Kotlin.Builder
import VectorIcon.Proofs.Template.Selection

/-!
# What overrides can change

An override replaces a color where it is painted, and nothing else (`overrides_act_on_colors`).

1. Code depends on a style only through the texts of the colors that an icon has, at whatever depth
   (`nodeLines_congr`).
2. The text of every such color stands in one of the lines (`stands_nodeLines`). So a color is written if
   and only if the icon has it (`writes_iff`), since a text that is longer than all code stands in none.

The palette is collected by another walk over the icon, and holds the keys of what is written.
-/

namespace VectorIcon.Kotlin

open Icon

/-- Two styles write each of the colors in the same way. -/
def AgreeOn (style style' : ColorStyle) (cs : List Color) : Prop :=
  ∀ c ∈ cs, style.expression c = style'.expression c

/-- A text stands in one of the lines. -/
def Stands (text : String) (lines : List String) : Prop :=
  ∃ line ∈ lines, text.toList <:+: line.toList

/-- The code of an icon writes a color: whatever replaces the color stands in the code. -/
def Writes (options : Options) (icon : Icon) (c : Color) : Prop :=
  ∀ (overrides : Overrides) (text : String), overrides.lookup c = some text →
    text.toList <:+: (generate options overrides icon).code.toList

/-! ## Code that stays the same -/

section

variable {style style' : ColorStyle}

theorem paintLines_congr {calls : CallStyle} {paint : Paint} (h : AgreeOn style style' paint.colors) :
    paintLines calls style paint = paintLines calls style' paint := by
  have hstops (stops : List Stop) (h : AgreeOn style style' (stops.map Stop.color)) :
      stopsArgument calls style stops = stopsArgument calls style' stops := by
    unfold stopsArgument
    congr 2
    refine List.map_congr_left fun stop hstop => ?_
    rw [h stop.color (List.mem_map_of_mem hstop)]
  cases paint with
  | solid color => rw [paintLines, paintLines, h color List.mem_cons_self]
  | linear start finish stops => rw [paintLines, paintLines, hstops stops h]
  | radial center radius focus stops => rw [paintLines, paintLines, hstops stops h]

theorem paintArgument_congr {options : Options} {label : String} {paint? : Option Paint}
    (h : AgreeOn style style' (paint?.toList.flatMap Paint.colors)) :
    paintArgument options style label paint? = paintArgument options style' label paint? := by
  cases paint? with
  | none => rfl
  | some paint =>
    rw [paintArgument, paintArgument, paintLines_congr]
    simpa using h

theorem outlineLines_congr {options : Options} {o : Outline} (h : AgreeOn style style' o.colors) :
    outlineLines options style o = outlineLines options style' o := by
  have hfill : AgreeOn style style' (o.fill.toList.flatMap Paint.colors) := by
    intro c hc
    exact h c (by simp [Outline.colors, hc])
  have hstroke : AgreeOn style style' (o.stroke.toList.flatMap Paint.colors) := by
    intro c hc
    exact h c (by simp [Outline.colors, hc])
  simp only [outlineLines, outlineArguments, paintArgument_congr hfill, paintArgument_congr hstroke]

mutual

theorem nodeLines_congr {options : Options} (depth : Nat) (node : Node)
    (h : AgreeOn style style' (node.outlines.flatMap Outline.colors)) :
    nodeLines options style depth node = nodeLines options style' depth node := by
  cases node with
  | path o =>
    rw [nodeLines, nodeLines, outlineLines_congr]
    simpa [Node.outlines] using h
  | group p children => rw [nodeLines, nodeLines, nodesLines_congr (depth + 1) children h]

/-- The lines of parts depend on the texts of the colors of their paths. -/
theorem nodesLines_congr {options : Options} (depth : Nat) (nodes : List Node)
    (h : AgreeOn style style' ((Node.outlinesOf nodes).flatMap Outline.colors)) :
    nodesLines options style depth nodes = nodesLines options style' depth nodes := by
  cases nodes with
  | nil => rfl
  | cons node rest =>
    rw [Node.outlinesOf, List.flatMap_append] at h
    rw [nodesLines, nodesLines,
      nodeLines_congr depth node fun c hc => h c (List.mem_append_left _ hc),
      nodesLines_congr depth rest fun c hc => h c (List.mem_append_right _ hc)]

end

end

/-- The code of an icon depends on what replaces the colors that it has. -/
theorem code_congr {options : Options} {icon : Icon} {overrides overrides' : Overrides}
    (h : ∀ c ∈ icon.colors ++ icon.tint.toList, overrides.lookup c = overrides'.lookup c) :
    (generate options overrides icon).code = (generate options overrides' icon).code := by
  have hagree : AgreeOn ⟨options.namedColors, overrides⟩ ⟨options.namedColors, overrides'⟩
      (icon.colors ++ icon.tint.toList) := by
    intro c hc
    unfold ColorStyle.expression
    rw [h c hc]
  have hnodes : nodesLines options ⟨options.namedColors, overrides⟩ 1 icon.nodes =
      nodesLines options ⟨options.namedColors, overrides'⟩ 1 icon.nodes :=
    nodesLines_congr 1 icon.nodes fun c hc => hagree c (List.mem_append_left _ hc)
  have harguments : iconArguments ⟨options.namedColors, overrides⟩ icon =
      iconArguments ⟨options.namedColors, overrides'⟩ icon := by
    unfold iconArguments
    congr 3
    refine Option.map_congr fun tint htint => ?_
    rw [hagree tint (List.mem_append_right _ (Option.mem_toList.2 htint))]
  show builderCode options overrides icon = builderCode options overrides' icon
  simp only [builderCode, builderLines, hnodes, harguments]

/-! ## Texts in lines -/

section

variable {text : String} {lines lines' : List String}

theorem stands_cons {line : String} :
    Stands text (line :: lines) ↔ text.toList <:+: line.toList ∨ Stands text lines := by
  simp [Stands]

theorem stands_append : Stands text (lines ++ lines') ↔ Stands text lines ∨ Stands text lines' := by
  simp only [Stands, List.mem_append, or_and_right, exists_or]

theorem stands_between (before after : String) : Stands text [before ++ text ++ after] := by
  refine ⟨_, List.mem_singleton_self _, before.toList, after.toList, ?_⟩
  rw [String.toList_append, String.toList_append]

/-- A line with more text around it still holds what it held. -/
theorem isInfix_around {line : String} (before after : String) (h : text.toList <:+: line.toList) :
    text.toList <:+: (before ++ line ++ after).toList := by
  rw [String.toList_append, String.toList_append]
  exact h.trans (List.infix_append _ _ _)

theorem Stands.labelled {label : String} (h : Stands text lines) :
    Stands text (labelled label lines) := by
  cases lines with
  | nil => exact h
  | cons first rest =>
    refine stands_cons.2 ((stands_cons.1 h).imp_left fun hfirst => ?_)
    simpa using isInfix_around label "" hfirst

theorem Stands.endedWith {ending : String} (h : Stands text lines) :
    Stands text (endedWith ending lines) := by
  induction lines with
  | nil => exact h
  | cons first rest ih =>
    cases rest with
    | nil =>
      refine stands_cons.2 ((stands_cons.1 h).imp_left fun hfirst => ?_)
      simpa using isInfix_around "" ending hfirst
    | cons second rest => exact stands_cons.2 ((stands_cons.1 h).imp_right ih)

theorem Stands.nested {calls : CallStyle} (h : Stands text lines) :
    Stands text (calls.nested lines) := by
  obtain ⟨line, hline, htext⟩ := h
  refine ⟨calls.indent ++ line, List.mem_map_of_mem hline, ?_⟩
  simpa using isInfix_around calls.indent "" htext

theorem stands_arguments {calls : CallStyle} {args : List (List String)} {argument : List String}
    (hmem : argument ∈ args) (h : Stands text argument) : Stands text (calls.arguments args) := by
  induction args with
  | nil => cases hmem
  | cons first rest ih =>
    cases rest with
    | nil =>
      rw [List.mem_singleton.1 hmem] at h
      exact h.endedWith.nested
    | cons second rest =>
      rw [CallStyle.arguments, stands_append]
      rcases List.mem_cons.1 hmem with rfl | hrest
      · exact .inl h.endedWith.nested
      · exact .inr (ih hrest)
      · nofun

theorem stands_call {calls : CallStyle} {name : String} {args : List (List String)}
    {argument : List String} (hmem : argument ∈ args) (h : Stands text argument) :
    Stands text (calls.call name args) := by
  rw [CallStyle.call, List.cons_append, stands_cons, stands_append]
  exact .inr (.inl (stands_arguments hmem h))

theorem stands_blockHead {options : Options} {name : String} {args : List (List String)}
    {argument : List String} (hmem : argument ∈ args) (h : Stands text argument) :
    Stands text (blockHead options name args) := by
  rw [blockHead, if_neg fun hempty => List.ne_nil_of_mem hmem (List.isEmpty_iff.1 hempty)]
  exact (stands_call hmem h).endedWith

theorem isInfix_intercalate (h : Stands text lines) :
    text.toList <:+: ("\n".intercalate lines).toList := by
  induction lines with
  | nil =>
    obtain ⟨line, hline, -⟩ := h
    cases hline
  | cons first rest ih =>
    cases rest with
    | nil =>
      obtain ⟨line, hline, htext⟩ := h
      rw [String.intercalate_singleton, ← List.mem_singleton.1 hline]
      exact htext
    | cons second rest =>
      rw [String.intercalate_cons_cons]
      rcases stands_cons.1 h with hfirst | hrest
      · simpa using isInfix_around "" ("\n" ++ "\n".intercalate (second :: rest)) hfirst
      · simpa using isInfix_around (first ++ "\n") "" (ih hrest)

end

/-! ## Painted colors -/

section

variable {style : ColorStyle} {c : Color}

theorem stands_paintLines {calls : CallStyle} {paint : Paint} (h : c ∈ paint.colors) :
    Stands (style.expression c) (paintLines calls style paint) := by
  have hstops {stops : List Stop} (h : c ∈ stops.map Stop.color) :
      Stands (style.expression c) (stopsArgument calls style stops) := by
    obtain ⟨stop, hstop, rfl⟩ := List.mem_map.1 h
    refine (stands_call (List.mem_map_of_mem hstop) ?_).labelled
    simpa using stands_between (floatLiteral stop.offset ++ " to ") ""
  cases paint with
  | solid color =>
    rw [List.mem_singleton.1 h]
    exact stands_between "SolidColor(" ")"
  | linear start finish stops => exact stands_call List.mem_cons_self (hstops h)
  | radial center radius focus stops => exact stands_call List.mem_cons_self (hstops h)

theorem stands_outlineLines {options : Options} {o : Outline} (h : c ∈ o.colors) :
    Stands (style.expression c) (outlineLines options style o) := by
  obtain ⟨paint, hpaint, hc⟩ := List.mem_flatMap.1 h
  have hstyled : o.isStyled = true := by
    rcases List.mem_append.1 hpaint with hfill | hstroke
    · simp [Outline.isStyled, Option.mem_toList.1 hfill]
    · simp [Outline.isStyled, Option.mem_toList.1 hstroke]
  have hargument : ∃ label, labelled label (paintLines options.calls style paint) ∈
      outlineArguments options style o := by
    rcases List.mem_append.1 hpaint with hfill | hstroke
    · refine ⟨"fill = ", ?_⟩
      simp [outlineArguments, Option.mem_toList.1 hfill, paintArgument]
    · refine ⟨"stroke = ", ?_⟩
      simp [outlineArguments, Option.mem_toList.1 hstroke, paintArgument]
  obtain ⟨label, hargument⟩ := hargument
  rw [outlineLines, if_pos hstyled, block, stands_append, stands_append]
  exact .inl (.inl (stands_blockHead hargument (stands_paintLines hc).labelled))

mutual

theorem stands_nodeLines {options : Options} (depth : Nat) (node : Node)
    (h : c ∈ node.outlines.flatMap Outline.colors) :
    Stands (style.expression c) (nodeLines options style depth node) := by
  cases node with
  | path o =>
    refine stands_outlineLines ?_
    simpa [Node.outlines] using h
  | group p children =>
    rw [nodeLines, block, stands_append, stands_append]
    exact .inl (.inr (stands_nodesLines (depth + 1) children h).nested)

/-- The text of every color that the parts are painted with stands in their lines. -/
theorem stands_nodesLines {options : Options} (depth : Nat) (nodes : List Node)
    (h : c ∈ (Node.outlinesOf nodes).flatMap Outline.colors) :
    Stands (style.expression c) (nodesLines options style depth nodes) := by
  cases nodes with
  | nil => cases h
  | cons node rest =>
    rw [Node.outlinesOf, List.flatMap_append] at h
    rw [nodesLines, stands_append]
    exact (List.mem_append.1 h).imp (stands_nodeLines depth node) (stands_nodesLines depth rest)

end

end

theorem stands_builderLines {options : Options} {overrides : Overrides} {icon : Icon} {c : Color}
    (h : c ∈ icon.colors ++ icon.tint.toList) :
    Stands (ColorStyle.expression ⟨options.namedColors, overrides⟩ c)
      (builderLines options overrides icon) := by
  let style : ColorStyle := ⟨options.namedColors, overrides⟩
  rw [builderLines, stands_append, stands_append]
  rcases List.mem_append.1 h with hpainted | htint
  · exact .inl (.inr (stands_nodesLines 1 icon.nodes hpainted).nested)
  · have hargument : ["tintColor = " ++ style.expression c] ∈ iconArguments style icon := by
      simp [iconArguments, Option.mem_toList.1 htint]
    have hstands : Stands (style.expression c) ["tintColor = " ++ style.expression c] := by
      simpa using stands_between "tintColor = " ""
    exact .inl (.inl (stands_call hargument hstands).endedWith)

/-- The code of an icon writes the colors of its paths and its tint, and no other color. -/
theorem writes_iff {options : Options} {icon : Icon} {c : Color} :
    Writes options icon c ↔ c ∈ icon.colors ++ icon.tint.toList := by
  constructor
  · intro h
    refine Decidable.byContradiction fun habsent => ?_
    -- a text that is longer than the code without overrides
    let text := (generate options [] icon).code ++ "x"
    have hsame : (generate options [(c, text)] icon).code = (generate options [] icon).code := by
      refine code_congr fun c' hc' => ?_
      have hne : c' ≠ c := by
        rintro rfl
        exact habsent hc'
      rw [List.lookup_cons, beq_false_of_ne hne]
    have htext := h [(c, text)] text (by simp)
    rw [hsame] at htext
    have hlength := htext.length_le
    have hlonger : text.toList.length = (generate options [] icon).code.toList.length + 1 := by
      simp [text]
    omega
  · intro h overrides text hlookup
    have hexpression : ColorStyle.expression ⟨options.namedColors, overrides⟩ c = text := by
      rw [ColorStyle.expression, hlookup]
    rw [← hexpression]
    exact isInfix_intercalate (stands_builderLines h)

/-- Overrides that replace the colors of an icon in the same way give the same code, imports do not depend
on overrides, and the palette holds the keys of the colors that code writes for the paths. -/
theorem overrides_act_on_colors (options : Options) (icon : Icon) :
    (∀ overrides overrides' : Overrides,
      (∀ c ∈ icon.colors ++ icon.tint.toList, overrides.lookup c = overrides'.lookup c) →
        (generate options overrides icon).code = (generate options overrides' icon).code) ∧
    (∀ overrides overrides' : Overrides,
      (generate options overrides icon).imports = (generate options overrides' icon).imports) ∧
    ∀ key, key ∈ icon.palette ↔ ∃ c, Writes options { icon with tint := none } c ∧
      (key = c.shortKey ∨ c.isSolid = false ∧ key = c.longKey) := by
  refine ⟨fun _ _ => code_congr, fun _ _ => rfl, fun key => ?_⟩
  rw [Template.mem_palette_iff]
  refine exists_congr fun c => and_congr ?_ Template.mem_keys_iff
  rw [writes_iff]
  show c ∈ icon.colors ↔ c ∈ icon.colors ++ []
  rw [List.append_nil]

/-- A red path with a gradient around it in a group, and a tint. -/
def badge : Icon where
  name := "badge"
  width := 24
  height := 24
  viewportWidth := 24
  viewportHeight := 24
  nodes := [.group {} [.path {
    commands := [.close]
    fill := some (.solid ⟨0xFFFF0000⟩)
    stroke := some (.linear ⟨0, 0⟩ ⟨24, 0⟩ [⟨0, ⟨0xFF000000⟩⟩, ⟨1, ⟨0x00000000⟩⟩]) }]]
  autoMirror := false
  tint := some ⟨0xFF00FF00⟩

/-- A red that can be seen through is another color than the red of the badge. -/
theorem code_badge :
    (∀ c ∈ badge.colors ++ badge.tint.toList,
      List.lookup c ([] : Overrides) = List.lookup c [(⟨0x80FF0000⟩, "shade")]) ∧
    (generate {} [] badge).code = (generate {} [(⟨0x80FF0000⟩, "shade")] badge).code :=
  ⟨by decide, (overrides_act_on_colors {} badge).1 _ _ (by decide)⟩

end VectorIcon.Kotlin
