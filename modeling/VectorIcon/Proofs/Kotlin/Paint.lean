import VectorIcon.Kotlin.Builder
import VectorIcon.Proofs.Kotlin.Color
import VectorIcon.Proofs.Kotlin.Fields

/-!
# Paints as tokens

A gradient is a call with named arguments. Its stops are the arguments of a call among them, each an
offset, a word and a color. The tokens of a paint tell everything about it but the focus
(`samePaint_of_paintTokens`).
-/

namespace VectorIcon.Kotlin

open Icon

def pointTokens (p : Point) : List Token :=
  .word "Offset" :: arguments false [numberTokens p.x, numberTokens p.y]

def stopTokens (options : Options) (s : Stop) : List Token :=
  numberTokens s.offset ++ .word "to" :: colorTokens options.namedColors s.color

def stopsTokens (options : Options) (stops : List Stop) : List Token :=
  .word "arrayOf" :: arguments options.trailingCommas (stops.map (stopTokens options))

/-- A call on brushes with named arguments. -/
def brushTokens (options : Options) (name : String) (fields : List Field) : List Token :=
  .word "Brush" :: .mark '.' :: .word name :: arguments options.trailingCommas (fieldTokens fields)

def linearFields (options : Options) (start finish : Point) (stops : List Stop) : List Field :=
  [⟨"colorStops", some (stopsTokens options stops)⟩, ⟨"start", some (pointTokens start)⟩,
    ⟨"end", some (pointTokens finish)⟩]

def radialFields (options : Options) (center : Point) (radius : Float) (stops : List Stop) :
    List Field :=
  [⟨"colorStops", some (stopsTokens options stops)⟩, ⟨"center", some (pointTokens center)⟩,
    ⟨"radius", some (numberTokens radius)⟩]

theorem labels_linearFields (options : Options) (start finish : Point) (stops : List Stop) :
    (linearFields options start finish stops).map Field.label = ["colorStops", "start", "end"] := rfl

theorem labels_radialFields (options : Options) (center : Point) (radius : Float) (stops : List Stop) :
    (radialFields options center radius stops).map Field.label = ["colorStops", "center", "radius"] := rfl

/-- The tokens of a paint. -/
def paintTokens (options : Options) : Paint → List Token
  | .solid color => .word "SolidColor" :: arguments false [colorTokens options.namedColors color]
  | .linear start finish stops =>
    brushTokens options "linearGradient" (linearFields options start finish stops)
  | .radial center radius _ stops =>
    brushTokens options "radialGradient" (radialFields options center radius stops)

/-! ## Units -/

theorem isUnit_call {name : String} {trailing : Bool} {l : List (List Token)}
    (h : ∀ u ∈ l, IsUnit u) : IsUnit (.word name :: arguments trailing l) :=
  (isUnit_word name).cons (isUnit_arguments h)

theorem isUnit_of_mem_map {α : Type} {f : α → List Token} (hf : ∀ a, IsUnit (f a)) (l : List α) :
    ∀ u ∈ l.map f, IsUnit u := by
  intro u hu
  obtain ⟨a, -, rfl⟩ := List.mem_map.1 hu
  exact hf a

theorem isUnit_coordinate (p : Point) : ∀ u ∈ [numberTokens p.x, numberTokens p.y], IsUnit u :=
  isUnit_of_mem_map isUnit_numberTokens [p.x, p.y]

theorem isUnit_pointTokens (p : Point) : IsUnit (pointTokens p) :=
  isUnit_call (isUnit_coordinate p)

section

variable (options : Options)

theorem isUnit_colorArgument (c : Color) :
    ∀ u ∈ [colorTokens options.namedColors c], IsUnit u :=
  isUnit_of_mem_map (isUnit_colorTokens options.namedColors) [c]

theorem isUnit_stopTokens (s : Stop) : IsUnit (stopTokens options s) :=
  (isUnit_numberTokens s.offset).append ((isUnit_word "to").cons (isUnit_colorTokens _ s.color))

theorem isUnit_stopsTokens (stops : List Stop) : IsUnit (stopsTokens options stops) :=
  isUnit_call (isUnit_of_mem_map (isUnit_stopTokens options) stops)

theorem hasUnits_linearFields (start finish : Point) (stops : List Stop) :
    HasUnits (linearFields options start finish stops) := by
  refine .given (isUnit_stopsTokens options stops) (.given ?_ (.given ?_ .nil))
  · exact isUnit_pointTokens start
  · exact isUnit_pointTokens finish

theorem hasUnits_radialFields (center : Point) (radius : Float) (stops : List Stop) :
    HasUnits (radialFields options center radius stops) := by
  refine .given (isUnit_stopsTokens options stops) (.given ?_ (.given ?_ .nil))
  · exact isUnit_pointTokens center
  · exact isUnit_numberTokens radius

theorem isUnit_brushTokens {name : String} {fields : List Field} (h : HasUnits fields) :
    IsUnit (brushTokens options name fields) := by
  exact (isUnit_word "Brush").cons (isUnit_dot.cons (isUnit_call h.isUnit))

theorem isUnit_paintTokens (paint : Paint) : IsUnit (paintTokens options paint) := by
  cases paint with
  | solid color => exact isUnit_call (isUnit_colorArgument options color)
  | linear start finish stops =>
    exact isUnit_brushTokens options (hasUnits_linearFields options start finish stops)
  | radial center radius focus stops =>
    exact isUnit_brushTokens options (hasUnits_radialFields options center radius stops)

end

/-! ## Lines -/

/-- Blanks are no tokens. -/
theorem ends_indent (options : Options) : Ends options.calls.indent [] := by
  have hblanks (n : Nat) : tokens .between (List.replicate n ' ') = [] ∧
      modeAfter .between (List.replicate n ' ') = .between := by
    induction n with
    | zero => exact ⟨rfl, rfl⟩
    | succ n ih => exact ih
  unfold Ends tokensOf
  show tokens .between (String.ofList _).toList = _ ∧ modeAfter .between (String.ofList _).toList = _
  rw [String.toList_ofList]
  exact hblanks options.indentSize

theorem reads_pointExpression (p : Point) : Reads (pointExpression p) (pointTokens p) := by
  have hoffset : Ends "Offset(" [.word "Offset", .mark '('] := by decide
  have htexts := List.Forall₂.cons (reads_floatLiteral p.x) (.cons (reads_floatLiteral p.y) .nil)
  have hcall := @reads_callLine _ [.word "Offset"] _ _ hoffset htexts
  rw [String.intercalate_cons_cons, String.intercalate_singleton, ← String.append_assoc,
    ← String.append_assoc] at hcall
  exact hcall

section

variable (options : Options)

theorem reads_stop (s : Stop) :
    Reads (floatLiteral s.offset ++ " to " ++ colorExpression s.color options.namedColors)
      (stopTokens options s) := by
  have hto : Ends " to " [.word "to"] := by decide
  have hoffset := (reads_floatLiteral s.offset).append_ends hto (by decide) (by decide)
  have hstop := hoffset.append_reads (reads_colorExpression options.namedColors s.color)
  rw [List.append_assoc] at hstop
  exact hstop

theorem argumentReads_stops (stops : List Stop) :
    ArgumentReads (stopsArgument options.calls ⟨options.namedColors, []⟩ stops)
      (.word "colorStops" :: .mark '=' :: stopsTokens options stops) := by
  have hlabel : Ends "colorStops = " [.word "colorStops", .mark '='] := by decide
  have harray : Reads "arrayOf" [.word "arrayOf"] := by decide
  have hstops := forall₂_map_map (r := ArgumentReads)
    (fun s => argumentReads_singleton (reads_stop options s)) stops
  rw [stopsArgument, stopsTokens]
  exact argumentReads_labelled hlabel (.call (ends_indent options) harray hstops)

theorem argumentReads_paint (paint : Paint) :
    ArgumentReads (paintLines options.calls ⟨options.namedColors, []⟩ paint)
      (paintTokens options paint) := by
  cases paint with
  | solid color =>
    have hsolid : Ends "SolidColor(" [.word "SolidColor", .mark '('] := by decide
    have htexts := List.Forall₂.cons (reads_colorExpression options.namedColors color) .nil
    have hcall := @reads_callLine _ [.word "SolidColor"] _ _ hsolid htexts
    rw [String.intercalate_singleton] at hcall
    exact argumentReads_singleton hcall
  | linear start finish stops =>
    have hname : Reads "Brush.linearGradient"
      [.word "Brush", .mark '.', .word "linearGradient"] := by decide
    have hstart : Ends "start = " [.word "start", .mark '='] := by decide
    have hend : Ends "end = " [.word "end", .mark '='] := by decide
    rw [paintLines, paintTokens, brushTokens]
    refine ArgumentReads.call (ends_indent options) hname ?_
    refine .cons (argumentReads_stops options stops) (.cons ?_ (.cons ?_ .nil))
    · exact argumentReads_line hstart (reads_pointExpression start)
    · exact argumentReads_line hend (reads_pointExpression finish)
  | radial center radius focus stops =>
    have hname : Reads "Brush.radialGradient"
      [.word "Brush", .mark '.', .word "radialGradient"] := by decide
    have hcenter : Ends "center = " [.word "center", .mark '='] := by decide
    have hradius : Ends "radius = " [.word "radius", .mark '='] := by decide
    rw [paintLines, paintTokens, brushTokens]
    refine ArgumentReads.call (ends_indent options) hname ?_
    refine .cons (argumentReads_stops options stops) (.cons ?_ (.cons ?_ .nil))
    · exact argumentReads_line hcenter (reads_pointExpression center)
    · exact argumentReads_line hradius (reads_floatLiteral radius)

end

/-! ## What the tokens tell -/

theorem samePoint_of_pointTokens {p q : Point} (h : pointTokens p = pointTokens q) :
    SamePoint p q := by
  have hlists := arguments_inj (isUnit_coordinate p) (isUnit_coordinate q) (List.cons.inj h).2
  obtain ⟨hx, hrest⟩ := List.cons.inj hlists
  obtain ⟨hy, -⟩ := List.cons.inj hrest
  exact ⟨alike_of_numberTokens hx, alike_of_numberTokens hy⟩

section

variable {options : Options}

theorem sameStop_of_stopTokens {s t : Stop} (h : stopTokens options s = stopTokens options t) :
    SameStop s t := by
  obtain ⟨hoffset, hrest⟩ := numberTokens_append_inj h
  exact ⟨hoffset, colorTokens_inj (List.cons.inj hrest).2⟩

theorem sameStops_of_stopsTokens {stops stops' : List Stop}
    (h : stopsTokens options stops = stopsTokens options stops') :
    List.Forall₂ SameStop stops stops' := by
  have hunits := isUnit_of_mem_map (isUnit_stopTokens options)
  have hlists := arguments_inj (hunits stops) (hunits stops') (List.cons.inj h).2
  exact forall₂_of_map_eq (fun s t => sameStop_of_stopTokens) hlists

theorem brushTokens_inj {name name' : String} {fields fields' : List Field} (hunits : HasUnits fields)
    (hunits' : HasUnits fields') (h : brushTokens options name fields = brushTokens options name' fields') :
    name = name' ∧ fieldTokens fields = fieldTokens fields' := by
  obtain ⟨hname, hrest⟩ := List.cons.inj (List.cons.inj (List.cons.inj h).2).2
  exact ⟨Token.word.inj hname, arguments_inj hunits.isUnit hunits'.isUnit hrest⟩

theorem sameLinear_of_fieldTokens {start start' finish finish' : Point} {stops stops' : List Stop}
    (h : fieldTokens (linearFields options start finish stops) =
      fieldTokens (linearFields options start' finish' stops')) :
    SamePaint (.linear start finish stops) (.linear start' finish' stops') := by
  have hlabels : ((linearFields options start finish stops).map Field.label).Nodup := by
    rw [labels_linearFields]
    decide
  have heq := fieldTokens_inj h rfl hlabels
  simp only [linearFields, List.cons.injEq, Field.mk.injEq, Option.some.injEq, true_and,
    and_true] at heq
  obtain ⟨hstops, hstart, hfinish⟩ := heq
  exact .linear (samePoint_of_pointTokens hstart) (samePoint_of_pointTokens hfinish)
    (sameStops_of_stopsTokens hstops)

theorem sameRadial_of_fieldTokens {center center' : Point} {radius radius' : Float}
    {focus focus' : Option Point} {stops stops' : List Stop}
    (h : fieldTokens (radialFields options center radius stops) =
      fieldTokens (radialFields options center' radius' stops')) :
    SamePaint (.radial center radius focus stops) (.radial center' radius' focus' stops') := by
  have hlabels : ((radialFields options center radius stops).map Field.label).Nodup := by
    rw [labels_radialFields]
    decide
  have heq := fieldTokens_inj h rfl hlabels
  simp only [radialFields, List.cons.injEq, Field.mk.injEq, Option.some.injEq, true_and,
    and_true] at heq
  obtain ⟨hstops, hcenter, hradius⟩ := heq
  exact .radial (samePoint_of_pointTokens hcenter) (alike_of_numberTokens hradius)
    (sameStops_of_stopsTokens hstops)

/-- The tokens of a paint tell everything about it but the focus. -/
theorem samePaint_of_paintTokens {p q : Paint} (h : paintTokens options p = paintTokens options q) :
    SamePaint p q := by
  have hword : Token.word "SolidColor" ≠ .word "Brush" := by decide
  have hname : "linearGradient" ≠ "radialGradient" := by decide
  cases p with
  | solid color =>
    cases q with
    | solid color' =>
      have hlists := arguments_inj (isUnit_colorArgument options color)
        (isUnit_colorArgument options color') (List.cons.inj h).2
      rw [colorTokens_inj (List.cons.inj hlists).1]
      exact .solid color'
    | linear => exact absurd (List.cons.inj h).1 hword
    | radial => exact absurd (List.cons.inj h).1 hword
  | linear start finish stops =>
    have hunits := hasUnits_linearFields options start finish stops
    cases q with
    | solid => exact absurd (List.cons.inj h).1.symm hword
    | linear start' finish' stops' =>
      have hunits' := hasUnits_linearFields options start' finish' stops'
      exact sameLinear_of_fieldTokens (brushTokens_inj hunits hunits' h).2
    | radial center radius focus stops' =>
      have hunits' := hasUnits_radialFields options center radius stops'
      exact absurd (brushTokens_inj hunits hunits' h).1 hname
  | radial center radius focus stops =>
    have hunits := hasUnits_radialFields options center radius stops
    cases q with
    | solid => exact absurd (List.cons.inj h).1.symm hword
    | linear start finish stops' =>
      have hunits' := hasUnits_linearFields options start finish stops'
      exact absurd (brushTokens_inj hunits hunits' h).1.symm hname
    | radial center' radius' focus' stops' =>
      have hunits' := hasUnits_radialFields options center' radius' stops'
      exact sameRadial_of_fieldTokens (brushTokens_inj hunits hunits' h).2

end

end VectorIcon.Kotlin
