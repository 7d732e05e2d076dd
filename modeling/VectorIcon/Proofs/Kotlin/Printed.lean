import VectorIcon.Proofs.Kotlin.Literal
import VectorIcon.Proofs.Kotlin.Mention

/-!
# Numbers that are no literals

The code of an icon has the word of an infinity in it if and only if one of the numbers that are written is
out of range, which is to say that it is finite and its millionths are not (`word_mem_iconTokens`). All other
numbers are literals (`float_literals`).
-/

namespace VectorIcon.Kotlin

open Icon Number

variable {v : Float}

/-- A number is none or infinite, or a million times as much is below the limit of doubles. -/
def InRange (v : Float) : Prop :=
  ∀ b ∈ Binary.ofFloat? v, b.magnitude * 10 ^ 6 < limit

theorem inRange_iff : InRange v ↔ (isFinite v = true → isFinite (v * 1e6) = true) := by
  constructor
  · intro h hfinite
    obtain ⟨b, hb⟩ := exists_ofFloat? hfinite
    rw [isFinite_mul_iff hb ofFloat?_million, magnitude_million]
    exact h b hb
  · intro h b hb
    rw [← magnitude_million, ← isFinite_mul_iff hb ofFloat?_million]
    exact h (Option.isSome_iff_exists.2 ⟨b, hb⟩)

/-! ## Texts of numbers -/

/-- A character of number literals. -/
def isLiteralChar (c : Char) : Bool :=
  Text.isDigit c || c == '.' || c == '-' || c == 'f'

theorem IsLiteral.all {text : String} (h : IsLiteral text) : ∀ c ∈ text.toList, isLiteralChar c = true := by
  obtain ⟨⟨s, hs, htext⟩, -⟩ := h
  have hshort : ∀ c ∈ s, isLiteralChar c = true := by
    intro c hc
    rcases hs.isPlain.isDigit_or hc with hdigit | rfl
    · rw [isLiteralChar, hdigit]
      rfl
    · decide
  have hend : ∀ c ∈ s ++ ['f'], isLiteralChar c = true := by
    intro c hc
    rw [List.mem_append, List.mem_singleton] at hc
    rcases hc with hc | rfl
    · exact hshort c hc
    · decide
  intro c hc
  rcases htext with htext | htext <;> rw [htext] at hc
  · exact hend c hc
  · rw [List.cons_append, List.mem_cons] at hc
    rcases hc with rfl | hc
    · decide
    · exact hend c hc

/-- A literal has no characters of the words for what is no finite number. -/
theorem IsLiteral.without_words {text : String} (h : IsLiteral text) :
    ¬ "inf".toList <:+: text.toList ∧ ¬ "NaN".toList <:+: text.toList := by
  constructor
  · intro hpart
    exact absurd (h.all 'i' (hpart.subset (by decide))) (by decide)
  · intro hpart
    exact absurd (h.all 'N' (hpart.subset (by decide))) (by decide)

theorem isLiteral_of_inRange (h : InRange v) : IsLiteral (floatLiteral v) := by
  cases hfinite : isFinite v with
  | false =>
    rw [floatLiteral_of_not_isFinite hfinite]
    exact isLiteral_zero
  | true => exact isLiteral_of_isFinite hfinite (inRange_iff.1 h hfinite)

theorem floatLiteral_of_not_inRange (h : ¬ InRange v) :
    floatLiteral v = "inff" ∨ floatLiteral v = "-inff" := by
  rw [inRange_iff] at h
  obtain ⟨hfinite, hproduct⟩ := Classical.not_imp.1 h
  exact floatLiteral_of_overflow hfinite (Bool.not_eq_true _ ▸ hproduct)

/-- A number is written as a literal exactly when it is in range. -/
theorem isLiteral_iff_inRange : IsLiteral (floatLiteral v) ↔ InRange v := by
  refine ⟨fun h => ?_, isLiteral_of_inRange⟩
  by_contra hrange
  refine h.without_words.1 ?_
  rcases floatLiteral_of_not_inRange hrange with heq | heq <;> rw [heq] <;> decide

theorem word_mem_numberTokens : .word "inff" ∈ numberTokens v ↔ ¬ InRange v := by
  constructor
  · intro hmem hrange
    have hpart := (isLiteral_of_inRange hrange).without_words.1
    rcases numberTokens_cases v with h | ⟨w, h, heq⟩ <;> rw [h] at hmem
    · have hword := Token.word.inj (List.mem_singleton.1 hmem)
      rw [← hword] at hpart
      exact hpart (by decide)
    · have hword : "inff" = w := by simpa using hmem
      rw [heq, ← hword] at hpart
      exact hpart (by decide)
  · intro hrange
    unfold numberTokens
    rcases floatLiteral_of_not_inRange hrange with heq | heq <;> rw [heq] <;> decide

/-- A number that is not written because it is the default is in range. -/
theorem mentions_numberField {label : String} {d : Float} (hd : InRange d) :
    (numberField label v d).Mentions "inff" ↔ ¬ InRange v := by
  rw [numberField, mentions_givenUnless, word_mem_numberTokens]
  refine and_iff_right_of_imp fun hrange => ?_
  by_contra hdefault
  rw [Bool.not_eq_false] at hdefault
  rw [← isLiteral_iff_inRange, floatLiteral_eq_of_beq hdefault, isLiteral_iff_inRange] at hrange
  exact hrange hd

/-! ## The numbers that are written -/

/-- The numbers of a paint; the focus of a gradient is not written. -/
def paintNumbers : Paint → List Float
  | .solid _ => []
  | .linear start finish stops => stops.map Stop.offset ++ [start.x, start.y, finish.x, finish.y]
  | .radial center radius _ stops => stops.map Stop.offset ++ [center.x, center.y, radius]

/-- The numbers of a command. -/
def commandNumbers (c : Path.Command Float) : List Float :=
  c.arguments.filterMap fun
    | .number v => some v
    | .flag _ => none

/-- The numbers of a path; its trims are not written. -/
def outlineNumbers (o : Outline) : List Float :=
  (o.fill.toList ++ o.stroke.toList).flatMap paintNumbers ++
    [o.fillAlpha, o.strokeAlpha, o.lineWidth, o.miterLimit] ++ o.commands.flatMap commandNumbers

/-- The numbers of a group without those of its children. -/
def placementNumbers (p : Placement) : List Float :=
  [p.rotation, p.pivotX, p.pivotY, p.scaleX, p.scaleY, p.translationX, p.translationY] ++
    p.clip.flatMap commandNumbers

/-- The numbers of an icon. -/
def iconNumbers (icon : Icon) : List Float :=
  [icon.width, icon.height, icon.viewportWidth, icon.viewportHeight] ++
    icon.outlines.flatMap outlineNumbers ++ icon.placements.flatMap placementNumbers

/-- One of some numbers is out of range. -/
def Exceeds (numbers : List Float) : Prop :=
  ∃ v ∈ numbers, ¬ InRange v

section

variable {vs ws : List Float} {options : Options}

@[simp]
theorem not_exceeds_nil : ¬ Exceeds [] := by
  simp [Exceeds]

@[simp]
theorem exceeds_cons : Exceeds (v :: vs) ↔ ¬ InRange v ∨ Exceeds vs := by
  simp [Exceeds]

@[simp]
theorem exceeds_append : Exceeds (vs ++ ws) ↔ Exceeds vs ∨ Exceeds ws := by
  simp only [Exceeds, List.mem_append, or_and_right, exists_or]

theorem exists_mem_flatMap {α β : Type} {f : α → List β} {l : List α} {P : β → Prop} :
    (∃ b ∈ l.flatMap f, P b) ↔ ∃ a ∈ l, ∃ b ∈ f a, P b := by
  simp only [List.mem_flatMap]
  constructor
  · rintro ⟨b, ⟨a, ha, hb⟩, hP⟩
    exact ⟨a, ha, b, hb, hP⟩
  · rintro ⟨a, ha, b, hb, hP⟩
    exact ⟨b, ⟨a, ha, hb⟩, hP⟩

theorem exceeds_flatMap {α : Type} {f : α → List Float} {l : List α} :
    Exceeds (l.flatMap f) ↔ ∃ a ∈ l, Exceeds (f a) :=
  exists_mem_flatMap

/-! ## Paints -/

theorem word_not_mem_colorTokens {named : Bool} {c : Color} : .word "inff" ∉ colorTokens named c := by
  have hconstants : ∀ entry ∈ Color.constants, "inff" ≠ entry.1 := by decide
  have halpha : "inff" ≠ alphaLiteral c.alpha := by
    intro heq
    have hchars : ['i', 'n', 'f'] ++ ['f'] = thousandthsText (alphaThousandths c.alpha) ++ ['f'] :=
      (congrArg String.toList heq).trans String.toList_ofList
    have hfirst : 'i' ∈ thousandthsText (alphaThousandths c.alpha) := by
      rw [← List.append_cancel_right hchars]
      exact List.mem_cons_self ..
    exact absurd ((isPlain_thousandthsText _).isDigit_or hfirst) (by decide)
  have hhex (rest : String) : "inff" ≠ "0x" ++ rest := by
    intro heq
    have hfirst := congrArg (fun text => text.toList.head?) heq
    rw [String.toList_append] at hfirst
    cases hfirst
  unfold colorTokens
  cases hname : if named then c.constantName? else none with
  | some name =>
    obtain ⟨entry, hentry, rfl, -⟩ := exists_constant hname
    have hentry := hconstants entry hentry
    cases c.isSolid with
    | true => simp [hentry]
    | false => simp [hentry, halpha]
  | none => simp [hhex]

theorem word_mem_pointTokens {p : Point} : .word "inff" ∈ pointTokens p ↔ ¬ InRange p.x ∨ ¬ InRange p.y := by
  simp [pointTokens, word_mem_numberTokens]

theorem word_mem_stopsTokens {stops : List Stop} :
    .word "inff" ∈ stopsTokens options stops ↔ Exceeds (stops.map Stop.offset) := by
  have hstop (s : Stop) : .word "inff" ∈ stopTokens options s ↔ ¬ InRange s.offset := by
    simp [stopTokens, word_mem_numberTokens, word_not_mem_colorTokens]
  simp [stopsTokens, hstop, Exceeds]

theorem word_mem_brushTokens {name : String} {fields : List Field} (hname : "inff" ≠ name)
    (hlabels : "inff" ∉ fields.map Field.label) :
    .word "inff" ∈ brushTokens options name fields ↔ ∃ f ∈ fields, f.Mentions "inff" := by
  rw [← word_mem_fieldTokens hlabels]
  simp [brushTokens, hname]

theorem word_mem_paintTokens {paint : Paint} :
    .word "inff" ∈ paintTokens options paint ↔ Exceeds (paintNumbers paint) := by
  cases paint with
  | solid color => simp [paintTokens, paintNumbers, word_not_mem_colorTokens]
  | linear start finish stops =>
    have hlabels : "inff" ∉ (linearFields options start finish stops).map Field.label := by
      rw [labels_linearFields]
      decide
    rw [paintTokens, word_mem_brushTokens (by decide) hlabels]
    simp [linearFields, word_mem_stopsTokens, word_mem_pointTokens, paintNumbers, or_assoc]
  | radial center radius focus stops =>
    have hlabels : "inff" ∉ (radialFields options center radius stops).map Field.label := by
      rw [labels_radialFields]
      decide
    rw [paintTokens, word_mem_brushTokens (by decide) hlabels]
    simp [radialFields, word_mem_stopsTokens, word_mem_pointTokens, word_mem_numberTokens, paintNumbers,
      or_assoc]

/-! ## Commands -/

theorem word_mem_argumentListTokens {c : Path.Command Float} :
    .word "inff" ∈ argumentListTokens c ↔ Exceeds (commandNumbers c) := by
  have hflags : ∀ b, "inff" ≠ argumentText (.flag b) := by decide
  have hargument (a : Path.Argument Float) :
      .word "inff" ∈ argumentTokens a ↔ ∃ v, a = .number v ∧ ¬ InRange v := by
    cases a with
    | number v => simp [argumentTokens, word_mem_numberTokens]
    | flag b => simp [argumentTokens, hflags]
  simp only [argumentListTokens, word_mem_arguments, List.mem_map, exists_exists_and_eq_and, hargument,
    Exceeds, commandNumbers, List.mem_filterMap]
  constructor
  · rintro ⟨_, hmem, v, rfl, hrange⟩
    exact ⟨v, ⟨.number v, hmem, rfl⟩, hrange⟩
  · rintro ⟨v, ⟨a, hmem, ha⟩, hrange⟩
    cases a with
    | number w =>
      obtain rfl := Option.some.inj ha
      exact ⟨.number w, hmem, w, rfl, hrange⟩
    | flag b => cases ha

theorem word_mem_callTokens {c : Path.Command Float} :
    .word "inff" ∈ callTokens c ↔ Exceeds (commandNumbers c) := by
  have hcalls : ∀ letter ∈ letters, "inff" ≠ callName letter := by decide
  simp [callTokens, hcalls c.letter (mem_letters c.letter), word_mem_argumentListTokens]

theorem word_mem_entryTokens {c : Path.Command Float} :
    .word "inff" ∈ entryTokens c ↔ Exceeds (commandNumbers c) := by
  have hmembers : ∀ letter ∈ letters, "inff" ≠ memberName letter := by decide
  unfold entryTokens
  split
  · next hclose =>
    simp [hmembers c.letter (mem_letters c.letter), commandNumbers, arguments_of_close hclose]
  · simp [hmembers c.letter (mem_letters c.letter), word_mem_argumentListTokens]

/-! ## Parts -/

theorem word_mem_outlineTokens {o : Outline} :
    .word "inff" ∈ outlineTokens options o ↔ Exceeds (outlineNumbers o) := by
  have hzero : InRange 0 := inRange_iff.2 (by decide +kernel)
  have hone : InRange 1 := inRange_iff.2 (by decide +kernel)
  have hfour : InRange 4 := inRange_iff.2 (by decide +kernel)
  have hcaps : ∀ cap, "inff" ≠ capName cap := by
    intro cap
    cases cap <;> decide
  have hjoins : ∀ join, "inff" ≠ joinName join := by
    intro join
    cases join <;> decide
  have hrules : ∀ rule, "inff" ≠ fillRuleName rule := by
    intro rule
    cases rule <;> decide
  have hlabels : "inff" ∉ (outlineFields options o).map Field.label := by
    rw [labels_outlineFields]
    decide
  have hcalls : .word "inff" ∈ o.commands.flatMap callTokens ↔
      Exceeds (o.commands.flatMap commandNumbers) := by
    simp only [List.mem_flatMap, word_mem_callTokens, exceeds_flatMap]
  have hpaints : Exceeds ((o.fill.toList ++ o.stroke.toList).flatMap paintNumbers) ↔
      (∃ p, o.fill = some p ∧ Exceeds (paintNumbers p)) ∨
        ∃ p, o.stroke = some p ∧ Exceeds (paintNumbers p) := by
    simp only [exceeds_flatMap, List.mem_append, Option.mem_toList, or_and_right, exists_or]
  rw [outlineTokens, word_mem_blockTokens (by decide), word_mem_fieldTokens hlabels, hcalls, outlineNumbers,
    exceeds_append, exceeds_append, hpaints]
  simp [outlineFields, constantTokens, mentions_numberField, hzero, hone, hfour, hcaps, hjoins, hrules,
    word_mem_paintTokens, or_assoc]

theorem word_mem_groupTokens {p : Placement} {body : List Token} :
    .word "inff" ∈ blockTokens options "group" (fieldTokens (placementFields p)) body ↔
      Exceeds (placementNumbers p) ∨ .word "inff" ∈ body := by
  have hzero : InRange 0 := inRange_iff.2 (by decide +kernel)
  have hone : InRange 1 := inRange_iff.2 (by decide +kernel)
  have hlabels : "inff" ∉ (placementFields p).map Field.label := by
    rw [labels_placementFields]
    decide
  have hclip : .word "inff" ∈ clipTokens p.clip ↔ Exceeds (p.clip.flatMap commandNumbers) := by
    simp [clipTokens, word_mem_entryTokens, exceeds_flatMap]
  have hgiven : p.clip ≠ [] ∧ .word "inff" ∈ clipTokens p.clip ↔ .word "inff" ∈ clipTokens p.clip := by
    refine and_iff_right_of_imp fun hmem hnil => ?_
    rw [hclip, hnil] at hmem
    exact not_exceeds_nil hmem
  rw [word_mem_blockTokens (by decide), word_mem_fieldTokens hlabels, placementNumbers, exceeds_append,
    ← hclip, ← hgiven]
  simp [placementFields, mentions_numberField, hzero, hone, or_assoc]

end

mutual

theorem word_mem_nodeTokens (options : Options) (node : Node) :
    .word "inff" ∈ nodeTokens options node ↔
      Exceeds (node.outlines.flatMap outlineNumbers) ∨
        Exceeds (node.placements.flatMap placementNumbers) := by
  cases node with
  | path o => simp [nodeTokens, word_mem_outlineTokens, Node.outlines, Node.placements]
  | group p children =>
    rw [nodeTokens, word_mem_groupTokens, word_mem_nodesTokens options children, Node.outlines,
      Node.placements, List.flatMap_cons, exceeds_append]
    exact or_left_comm

theorem word_mem_nodesTokens (options : Options) (nodes : List Node) :
    .word "inff" ∈ nodesTokens options nodes ↔
      Exceeds ((Node.outlinesOf nodes).flatMap outlineNumbers) ∨
        Exceeds ((Node.placementsOf nodes).flatMap placementNumbers) := by
  cases nodes with
  | nil => simp [nodesTokens, Node.outlinesOf, Node.placementsOf]
  | cons node rest =>
    rw [nodesTokens, List.mem_append, word_mem_nodeTokens options node, word_mem_nodesTokens options rest,
      Node.outlinesOf, Node.placementsOf, List.flatMap_append, List.flatMap_append, exceeds_append,
      exceeds_append]
    exact or_or_or_comm ..

end

/-! ## Icons -/

/-- The code of an icon has the word of an infinity when a number that is written is out of range. -/
theorem word_mem_iconTokens (options : Options) (icon : Icon) :
    .word "inff" ∈ iconTokens options icon ↔ Exceeds (iconNumbers icon) := by
  have hlabels : "inff" ∉ (iconFields options icon).map Field.label := by
    rw [labels_iconFields]
    decide
  have hfields : (∃ u ∈ fieldTokens (iconFields options icon), .word "inff" ∈ u) ↔
      Exceeds [icon.width, icon.height, icon.viewportWidth, icon.viewportHeight] := by
    rw [word_mem_fieldTokens hlabels]
    simp [iconFields, sizeTokens, word_mem_numberTokens, word_not_mem_colorTokens]
  have hnodes := word_mem_nodesTokens options icon.nodes
  rw [iconNumbers, exceeds_append, exceeds_append, or_assoc]
  simp [iconTokens, applyTokens, hfields, hnodes, Icon.outlines, Icon.placements]

/-- A number is written as a literal exactly when it is in range: with at most six places, without the words of
infinities and of what is no number, and never as a negative zero. What is not finite is written as zero. A
finite number that is not in range is written as an infinity, and only then an infinity is in the code of an
icon. -/
theorem float_literals (v : Float) (options : Options) (icon : Icon) :
    (IsLiteral (floatLiteral v) ↔ InRange v) ∧
      (InRange v →
        ¬ "inf".toList <:+: (floatLiteral v).toList ∧ ¬ "NaN".toList <:+: (floatLiteral v).toList) ∧
      (isFinite v = false → floatLiteral v = "0f") ∧
      (¬ InRange v → floatLiteral v = "inff" ∨ floatLiteral v = "-inff") ∧
      (.word "inff" ∈ tokensOf (generate options (.ofEntries []) icon).code ↔
        ∃ w ∈ iconNumbers icon, ¬ InRange w) := by
  refine ⟨isLiteral_iff_inRange, fun h => (isLiteral_of_inRange h).without_words, floatLiteral_of_not_isFinite,
    floatLiteral_of_not_inRange, ?_⟩
  show .word "inff" ∈ tokensOf (builderCode options (.ofEntries []) icon) ↔ Exceeds (iconNumbers icon)
  rw [(reads_builderCode options icon).1]
  exact word_mem_iconTokens options icon

/-- The millionths of `1e303` are an infinity, though the number is not. -/
theorem float_literals_overflow :
    isFinite 1e303 = true ∧ floatLiteral 1e303 = "inff" ∧ ¬ IsLiteral (floatLiteral 1e303) ∧
      builderCall (.moveTo .absolute 1e303 0) = "moveTo(inff, 0f)" := by
  have hinf : floatLiteral 1e303 = "inff" := by decide +kernel
  refine ⟨by decide +kernel, hinf, fun h => ?_, by decide +kernel⟩
  refine h.without_words.1 ?_
  rw [hinf]
  decide

end VectorIcon.Kotlin
