import VectorIcon.Proofs.Kotlin.Mention

/-!
# Imports are what code names

A symbol is imported by the code of an icon if and only if its identifier is a token of the code
(`imports_generate`). What each part of an icon names is read off its tokens: the class of a paint and of
its colors, the classes of line ends, corners and fill rules that are not the default, and the class of
the entries of a clip. No number, label or constant of code is an identifier that is imported, since the
former end with `f` and the latter are none of ten words.

A gradient without stops has no color in its code. So gradients are taken to have stops.
-/

namespace VectorIcon.Kotlin

open Icon

/-- A symbol in code. -/
def Symbol.identifier : Symbol → String
  | .offset => "Offset"
  | .brush => "Brush"
  | .color => "Color"
  | .pathFillType => "PathFillType"
  | .solidColor => "SolidColor"
  | .strokeCap => "StrokeCap"
  | .strokeJoin => "StrokeJoin"
  | .imageVector => "ImageVector"
  | .pathNode => "PathNode"
  | .dp => "dp"

/-- The symbol is one of the tokens. -/
def Names (ts : List Token) (s : Symbol) : Prop :=
  .word s.identifier ∈ ts

/-- The symbol is one of the tokens of the value of a named argument. -/
def Field.Names (f : Field) (s : Symbol) : Prop :=
  ∃ ts, f.value = some ts ∧ Kotlin.Names ts s

/-- A gradient has at least one stop. -/
def HasStops : Paint → Prop
  | .solid _ => True
  | .linear _ _ stops => stops ≠ []
  | .radial _ _ _ stops => stops ≠ []

instance : DecidablePred HasStops
  | .solid _ => inferInstanceAs (Decidable True)
  | .linear _ _ stops => inferInstanceAs (Decidable (stops ≠ []))
  | .radial _ _ _ stops => inferInstanceAs (Decidable (stops ≠ []))

/-! ## Symbols -/

theorem mem_all (s : Symbol) : s ∈ Symbol.all := by
  cases s <;> decide

theorem path_inj {s t : Symbol} (h : s.path = t.path) : s = t := by
  have hnodup : (Symbol.all.map Symbol.path).Nodup := by decide
  exact List.inj_on_of_nodup_map hnodup (mem_all s) (mem_all t) h

theorem identifier_inj {s t : Symbol} (h : s.identifier = t.identifier) : s = t := by
  have hnodup : (Symbol.all.map Symbol.identifier).Nodup := by decide
  exact List.inj_on_of_nodup_map hnodup (mem_all s) (mem_all t) h

theorem eq_identifier_iff {word : String} {s t : Symbol} (h : word = t.identifier) :
    word = s.identifier ↔ s = t := by
  rw [h, eq_comm]
  exact ⟨identifier_inj, congrArg Symbol.identifier⟩

/-- The word is no identifier that is imported. -/
def isForeign (word : String) : Bool :=
  Symbol.all.all (word != ·.identifier)

theorem ne_identifier_of_isForeign {word : String} (h : isForeign word = true) (s : Symbol) :
    word ≠ s.identifier := by
  have hs := List.all_eq_true.1 h s (mem_all s)
  simpa using hs

theorem ne_identifier_of_getLast? {word : String} (h : word.toList.getLast? = some 'f')
    (s : Symbol) : word ≠ s.identifier := by
  have hlast : ∀ s ∈ Symbol.all, s.identifier.toList.getLast? ≠ some 'f' := by decide
  rintro rfl
  exact hlast s (mem_all s) h

theorem ne_identifier_of_zero (rest : String) (s : Symbol) : "0" ++ rest ≠ s.identifier := by
  have hfirst : ∀ s ∈ Symbol.all, s.identifier.toList.head? ≠ some '0' := by decide
  intro h
  refine hfirst s (mem_all s) ?_
  rw [← h, String.toList_append]
  rfl

/-! ## Tokens that are put together -/

theorem exists_mem_iff {α : Type} {l : List α} : (∃ a, a ∈ l) ↔ l ≠ [] :=
  ⟨fun ⟨_, ha⟩ => List.ne_nil_of_mem ha, List.exists_mem_of_ne_nil l⟩

section

variable {s : Symbol} {ts us : List Token}

@[simp]
theorem not_names_nil : ¬ Names [] s :=
  List.not_mem_nil

@[simp]
theorem names_word_cons {word : String} :
    Names (.word word :: ts) s ↔ word = s.identifier ∨ Names ts s := by
  unfold Names
  rw [List.mem_cons, Token.word.injEq, eq_comm]

@[simp]
theorem names_mark_cons {c : Char} : Names (.mark c :: ts) s ↔ Names ts s := by
  simp [Names]

@[simp]
theorem names_literal_cons {text : String} : Names (.literal text :: ts) s ↔ Names ts s := by
  simp [Names]

@[simp]
theorem names_append : Names (ts ++ us) s ↔ Names ts s ∨ Names us s :=
  List.mem_append

theorem names_flatMap {α : Type} {f : α → List Token} {l : List α} :
    Names (l.flatMap f) s ↔ ∃ a ∈ l, Names (f a) s :=
  List.mem_flatMap

@[simp]
theorem names_arguments {trailing : Bool} {l : List (List Token)} :
    Names (arguments trailing l) s ↔ ∃ u ∈ l, Names u s :=
  word_mem_arguments

/-- Named arguments name what their values do, when no label is an identifier. -/
theorem names_fieldTokens {l : List Field} (h : (l.map Field.label).all isForeign = true) :
    (∃ u ∈ fieldTokens l, Names u s) ↔ ∃ f ∈ l, f.Names s :=
  word_mem_fieldTokens fun hmem => ne_identifier_of_isForeign (List.all_eq_true.1 h _ hmem) s rfl

@[simp]
theorem names_given {label : String} : Field.Names ⟨label, some ts⟩ s ↔ Names ts s :=
  mentions_given

@[simp]
theorem names_givenUnless {label : String} {b : Bool} :
    Field.Names ⟨label, givenUnless b ts⟩ s ↔ b = false ∧ Names ts s :=
  mentions_givenUnless

@[simp]
theorem names_map {α : Type} {label : String} {f : α → List Token} {o : Option α} :
    Field.Names ⟨label, o.map f⟩ s ↔ ∃ a, o = some a ∧ Names (f a) s :=
  mentions_map

end

/-! ## Numbers and colors -/

section

variable {s : Symbol}

@[simp]
theorem not_names_numberTokens (v : Float) : ¬ Names (numberTokens v) s := by
  have hlast : (floatLiteral v).toList.getLast? = some 'f' := by
    rw [floatLiteral, String.toList_append]
    exact List.getLast?_concat
  rcases numberTokens_cases v with h | ⟨w, h, heq⟩
  · simpa [h] using ne_identifier_of_getLast? hlast s
  · have hw : w.toList.getLast? = some 'f' := by
      rw [heq, String.toList_append, List.getLast?_append] at hlast
      cases hw : w.toList.getLast? with
      | none => simp [hw] at hlast
      | some c => simpa [hw] using hlast
    simpa [h] using ne_identifier_of_getLast? hw s

theorem getLast?_alphaLiteral (alpha : UInt8) : (alphaLiteral alpha).toList.getLast? = some 'f' := by
  rw [alphaLiteral_eq, String.toList_ofList]
  exact List.getLast?_concat

@[simp]
theorem names_colorTokens {named : Bool} {c : Color} : Names (colorTokens named c) s ↔ s = .color := by
  have hcolor : "Color" = s.identifier ↔ s = .color := eq_identifier_iff (by decide)
  have hconstants : ∀ entry ∈ Color.constants, isForeign entry.1 = true := by decide
  have hcopy := ne_identifier_of_isForeign (by decide : isForeign "copy" = true) s
  have halpha := ne_identifier_of_isForeign (by decide : isForeign "alpha" = true) s
  unfold colorTokens
  cases hname : if named then c.constantName? else none with
  | some name =>
    obtain ⟨entry, hentry, rfl, -⟩ := exists_constant hname
    have hentry := ne_identifier_of_isForeign (hconstants entry hentry) s
    have hliteral := ne_identifier_of_getLast? (getLast?_alphaLiteral c.alpha) s
    cases c.isSolid with
    | true => simp [hcolor, hentry]
    | false => simp [hcolor, hentry, hcopy, halpha, hliteral]
  | none =>
    have hword : "0x" ++ Color.hexText 8 c.argb ≠ s.identifier :=
      ne_identifier_of_zero ("x" ++ Color.hexText 8 c.argb) s
    simp [hcolor, hword]

@[simp]
theorem not_names_numberField (label : String) (v d : Float) : ¬ (numberField label v d).Names s := by
  simp [numberField]

/-! ## Paints -/

@[simp]
theorem names_pointTokens {p : Point} : Names (pointTokens p) s ↔ s = .offset := by
  have hoffset : "Offset" = s.identifier ↔ s = .offset := eq_identifier_iff (by decide)
  simp [pointTokens, hoffset]

theorem names_stopsTokens {options : Options} {stops : List Stop} :
    Names (stopsTokens options stops) s ↔ s = .color ∧ stops ≠ [] := by
  have harray := ne_identifier_of_isForeign (by decide : isForeign "arrayOf" = true) s
  have hto := ne_identifier_of_isForeign (by decide : isForeign "to" = true) s
  have hstop {stop : Stop} : Names (stopTokens options stop) s ↔ s = .color := by
    simp [stopTokens, hto]
  cases stops with
  | nil => simp [stopsTokens, harray]
  | cons stop stops =>
    simp only [stopsTokens, names_word_cons, harray, false_or, names_arguments, List.mem_map,
      exists_exists_and_eq_and, hstop]
    constructor
    · rintro ⟨_, _, hs⟩
      exact ⟨hs, List.cons_ne_nil _ _⟩
    · rintro ⟨hs, -⟩
      exact ⟨stop, by simp, hs⟩

theorem names_brushTokens {options : Options} {name : String} {fields : List Field}
    (hname : isForeign name = true) (hlabels : (fields.map Field.label).all isForeign = true) :
    Names (brushTokens options name fields) s ↔
      s = .brush ∨ ∃ f ∈ fields, f.Names s := by
  have hbrush : "Brush" = s.identifier ↔ s = .brush := eq_identifier_iff (by decide)
  simp only [brushTokens, names_word_cons, names_mark_cons, names_arguments, hbrush,
    ne_identifier_of_isForeign hname s, false_or, names_fieldTokens hlabels]

/-- A color names its class and that of its paint, a gradient its class, its points and its colors. -/
theorem names_paintTokens {options : Options} {paint : Paint} (h : HasStops paint) :
    Names (paintTokens options paint) s ↔ s = .color ∨
      if isGradient paint then s = .brush ∨ s = .offset else s = .solidColor := by
  cases paint with
  | solid color =>
    have hsolid : "SolidColor" = s.identifier ↔ s = .solidColor := eq_identifier_iff (by decide)
    simp [paintTokens, hsolid, isGradient, or_comm]
  | linear start finish stops =>
    have hstops : stops ≠ [] := h
    have hname : isForeign "linearGradient" = true := by decide
    have hlabels : ((linearFields options start finish stops).map Field.label).all isForeign = true := by
      rw [labels_linearFields]
      decide
    rw [paintTokens, names_brushTokens hname hlabels]
    simp [linearFields, names_stopsTokens, hstops, isGradient]
    tauto
  | radial center radius focus stops =>
    have hstops : stops ≠ [] := h
    have hname : isForeign "radialGradient" = true := by decide
    have hlabels : ((radialFields options center radius stops).map Field.label).all isForeign = true := by
      rw [labels_radialFields]
      decide
    rw [paintTokens, names_brushTokens hname hlabels]
    simp [radialFields, names_stopsTokens, hstops, isGradient]
    tauto

/-! ## Commands -/

theorem not_names_argumentListTokens (c : Path.Command Float) : ¬ Names (argumentListTokens c) s := by
  have hflags : ∀ b, isForeign (argumentText (.flag b)) = true := by decide
  have hargument (a : Path.Argument Float) : ¬ Names (argumentTokens a) s := by
    cases a with
    | number v => exact not_names_numberTokens v
    | flag b => simpa [argumentTokens] using ne_identifier_of_isForeign (hflags b) s
  simp [argumentListTokens, hargument]

theorem not_names_callTokens (c : Path.Command Float) : ¬ Names (callTokens c) s := by
  have hcalls : ∀ letter ∈ letters, isForeign (callName letter) = true := by decide
  have hname := ne_identifier_of_isForeign (hcalls c.letter (mem_letters c.letter)) s
  simp [callTokens, hname, not_names_argumentListTokens]

theorem names_entryTokens {c : Path.Command Float} : Names (entryTokens c) s ↔ s = .pathNode := by
  have hnode : "PathNode" = s.identifier ↔ s = .pathNode := eq_identifier_iff (by decide)
  have hmembers : ∀ letter ∈ letters, isForeign (memberName letter) = true := by decide
  have hmember := ne_identifier_of_isForeign (hmembers c.letter (mem_letters c.letter)) s
  unfold entryTokens
  split <;> simp [hnode, hmember, not_names_argumentListTokens]

/-! ## Blocks -/

theorem names_blockTokens {options : Options} {name : String} {args : List (List Token)}
    {body : List Token} (hname : isForeign name = true) :
    Names (blockTokens options name args body) s ↔ (∃ u ∈ args, Names u s) ∨ Names body s :=
  word_mem_blockTokens (ne_identifier_of_isForeign hname s).symm

/-- What a path names outside of its paints. -/
def lineSymbols (o : Outline) (s : Symbol) : Prop :=
  (o.cap ≠ .butt ∧ s = .strokeCap) ∨ (o.join ≠ .miter ∧ s = .strokeJoin) ∨
    (o.fillRule ≠ .nonZero ∧ s = .pathFillType)

theorem names_outlineTokens {options : Options} {o : Outline} :
    Names (outlineTokens options o) s ↔
      (∃ p ∈ paints o, Names (paintTokens options p) s) ∨ lineSymbols o s := by
  have hcap : "StrokeCap" = s.identifier ↔ s = .strokeCap := eq_identifier_iff (by decide)
  have hjoin : "StrokeJoin" = s.identifier ↔ s = .strokeJoin := eq_identifier_iff (by decide)
  have hrule : "PathFillType" = s.identifier ↔ s = .pathFillType := eq_identifier_iff (by decide)
  have hcaps : ∀ cap, capName cap ≠ s.identifier := by
    intro cap
    cases cap <;> exact ne_identifier_of_isForeign (by decide) s
  have hjoins : ∀ join, joinName join ≠ s.identifier := by
    intro join
    cases join <;> exact ne_identifier_of_isForeign (by decide) s
  have hrules : ∀ rule, fillRuleName rule ≠ s.identifier := by
    intro rule
    cases rule <;> exact ne_identifier_of_isForeign (by decide) s
  have hcalls : ¬ Names (o.commands.flatMap callTokens) s := by
    rw [names_flatMap]
    rintro ⟨c, -, hc⟩
    exact not_names_callTokens c hc
  have hlabels : ((outlineFields options o).map Field.label).all isForeign = true := by
    rw [labels_outlineFields]
    decide
  have hpaints : (∃ p ∈ paints o, Names (paintTokens options p) s) ↔
      (∃ p, o.fill = some p ∧ Names (paintTokens options p) s) ∨
        ∃ p, o.stroke = some p ∧ Names (paintTokens options p) s := by
    simp [paints, or_and_right, exists_or]
  rw [outlineTokens, names_blockTokens (by decide), names_fieldTokens hlabels, hpaints]
  simp [outlineFields, constantTokens, hcap, hjoin, hrule, hcaps, hjoins, hrules, hcalls, lineSymbols,
    or_assoc]

theorem names_groupTokens {options : Options} {p : Placement} {body : List Token} :
    Names (blockTokens options "group" (fieldTokens (placementFields p)) body) s ↔
      (p.clip ≠ [] ∧ s = .pathNode) ∨ Names body s := by
  have hlist := ne_identifier_of_isForeign (by decide : isForeign "listOf" = true) s
  have hclip : Names (clipTokens p.clip) s ↔ p.clip ≠ [] ∧ s = .pathNode := by
    simp [clipTokens, hlist, names_entryTokens, exists_mem_iff]
  have hlabels : ((placementFields p).map Field.label).all isForeign = true := by
    rw [labels_placementFields]
    decide
  have hfields : (∃ f ∈ placementFields p, f.Names s) ↔ p.clip ≠ [] ∧ s = .pathNode := by
    simp [placementFields, hclip]
  rw [names_blockTokens (by decide), names_fieldTokens hlabels, hfields]

end

/-! ## Parts -/

/-- What the paths and groups of a tree name. -/
def treeNames (options : Options) (outlines : List Outline) (placements : List Placement)
    (s : Symbol) : Prop :=
  (∃ o ∈ outlines, Names (outlineTokens options o) s) ∨
    ∃ p ∈ placements, p.clip ≠ [] ∧ s = .pathNode

theorem treeNames_append {options : Options} {os os' : List Outline} {ps ps' : List Placement}
    {s : Symbol} : treeNames options (os ++ os') (ps ++ ps') s ↔
      treeNames options os ps s ∨ treeNames options os' ps' s := by
  simp only [treeNames, List.mem_append, or_and_right, exists_or]
  exact or_or_or_comm

mutual

theorem names_nodeTokens (options : Options) (s : Symbol) (node : Node) :
    Names (nodeTokens options node) s ↔ treeNames options node.outlines node.placements s := by
  cases node with
  | path o => simp [nodeTokens, Node.outlines, Node.placements, treeNames]
  | group p children =>
    rw [nodeTokens, names_groupTokens, names_nodesTokens options s children, Node.outlines,
      Node.placements]
    simp only [treeNames, List.mem_cons, exists_eq_or_imp]
    exact or_left_comm

theorem names_nodesTokens (options : Options) (s : Symbol) (nodes : List Node) :
    Names (nodesTokens options nodes) s ↔
      treeNames options (Node.outlinesOf nodes) (Node.placementsOf nodes) s := by
  cases nodes with
  | nil => simp [nodesTokens, Node.outlinesOf, Node.placementsOf, treeNames]
  | cons node rest =>
    rw [nodesTokens, names_append, names_nodeTokens options s node, names_nodesTokens options s rest,
      Node.outlinesOf, Node.placementsOf, treeNames_append]

end

/-! ## Icons -/

theorem names_iconTokens {options : Options} {icon : Icon} {s : Symbol} :
    Names (iconTokens options icon) s ↔ s = .imageVector ∨ (s = .dp ∨ icon.tint.isSome ∧ s = .color) ∨
      treeNames options icon.outlines icon.placements s := by
  have hclass : "ImageVector" = s.identifier ↔ s = .imageVector := eq_identifier_iff (by decide)
  have hdp : "dp" = s.identifier ↔ s = .dp := eq_identifier_iff (by decide)
  have hbuilder := ne_identifier_of_isForeign (by decide : isForeign "Builder" = true) s
  have happly := ne_identifier_of_isForeign (by decide : isForeign "apply" = true) s
  have hbuild := ne_identifier_of_isForeign (by decide : isForeign "build" = true) s
  have htrue := ne_identifier_of_isForeign (by decide : isForeign "true" = true) s
  have hlabels : ((iconFields options icon).map Field.label).all isForeign = true := by
    rw [labels_iconFields]
    decide
  have hfields : (∃ f ∈ iconFields options icon, f.Names s) ↔
      s = .dp ∨ icon.tint.isSome ∧ s = .color := by
    simp [iconFields, sizeTokens, hdp, htrue, Option.isSome_iff_exists]
  rw [iconTokens, applyTokens]
  simp [hclass, names_fieldTokens hlabels, hfields, hbuilder, happly, hbuild, names_nodesTokens,
    Icon.outlines, Icon.placements]

/-- The symbols that an icon uses are those that its tokens name. -/
theorem isUsed_iff_names {options : Options} {icon : Icon}
    (h : ∀ o ∈ icon.outlines, ∀ p ∈ paints o, HasStops p) (s : Symbol) :
    s.isUsed icon = true ↔ Names (iconTokens options icon) s := by
  have hpaints : (∃ o ∈ icon.outlines, ∃ p ∈ paints o, Names (paintTokens options p) s) ↔
      ∃ o ∈ icon.outlines, ∃ p ∈ paints o, s = .color ∨
        if isGradient p then s = .brush ∨ s = .offset else s = .solidColor := by
    refine exists_congr fun o => and_congr_right fun ho => ?_
    exact exists_congr fun p => and_congr_right fun hp => names_paintTokens (h o ho p hp)
  have houtlines : (∃ o ∈ icon.outlines, Names (outlineTokens options o) s) ↔
      (∃ o ∈ icon.outlines, ∃ p ∈ paints o, s = .color ∨
        if isGradient p then s = .brush ∨ s = .offset else s = .solidColor) ∨
      ∃ o ∈ icon.outlines, lineSymbols o s := by
    rw [← hpaints]
    simp only [names_outlineTokens, and_or_left, exists_or]
  rw [names_iconTokens, treeNames, houtlines]
  cases s <;> simp [Symbol.isUsed, lineSymbols, exists_mem_iff]

/-- Code imports a symbol if and only if it names it; of the ten symbols it always imports two. -/
theorem imports_generate (options : Options) (icon : Icon)
    (h : ∀ o ∈ icon.outlines, ∀ p ∈ paints o, HasStops p) :
    let generated := generate options (.ofEntries []) icon
    (∀ path ∈ generated.imports, ∃ s : Symbol, s.path = path) ∧
      Symbol.imageVector.path ∈ generated.imports ∧ Symbol.dp.path ∈ generated.imports ∧
      ∀ s : Symbol, s.path ∈ generated.imports ↔ .word s.identifier ∈ tokensOf generated.code := by
  have hmem (s : Symbol) : s.path ∈ required icon ↔ s.isUsed icon = true := by
    rw [required, List.mem_map]
    constructor
    · rintro ⟨t, ht, hpath⟩
      rw [← path_inj hpath]
      exact (List.mem_filter.1 ht).2
    · intro hs
      exact ⟨s, List.mem_filter.2 ⟨mem_all s, hs⟩, rfl⟩
  refine ⟨?_, (hmem .imageVector).2 rfl, (hmem .dp).2 rfl, ?_⟩
  · intro path hpath
    obtain ⟨s, -, hs⟩ := List.mem_map.1 hpath
    exact ⟨s, hs⟩
  · intro s
    show s.path ∈ required icon ↔ Names (tokensOf (builderCode options (.ofEntries []) icon)) s
    rw [hmem, (reads_builderCode options icon).1]
    exact isUsed_iff_names h s

theorem imports_generate_disc :
    (∀ o ∈ (disc none 1 none).outlines, ∀ p ∈ paints o, HasStops p) ∧
      (generate {} (.ofEntries []) (disc none 1 none)).imports =
        [Symbol.offset.path, Symbol.brush.path, Symbol.color.path, Symbol.imageVector.path,
          Symbol.pathNode.path, Symbol.dp.path] ∧
      ∀ s : Symbol, s.path ∈ (generate {} (.ofEntries []) (disc none 1 none)).imports ↔
        .word s.identifier ∈ tokensOf (generate {} (.ofEntries []) (disc none 1 none)).code :=
  ⟨by decide, by decide, (imports_generate {} (disc none 1 none) (by decide)).2.2.2⟩

end VectorIcon.Kotlin
