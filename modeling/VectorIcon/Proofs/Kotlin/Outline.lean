import VectorIcon.Proofs.Kotlin.Block

/-!
# Paths as tokens

A path is a block with at most nine arguments. The arguments that are left out have their defaults, and
a path that is not styled leaves out all of them (`outlineArguments_of_not_isStyled`).
-/

namespace VectorIcon.Kotlin

open Icon

/-- A member of a class. -/
def constantTokens (className name : String) : List Token :=
  [.word className, .mark '.', .word name]

/-- The arguments of a path. -/
def outlineFields (options : Options) (o : Outline) : List Field :=
  [⟨"fill", o.fill.map (paintTokens options)⟩,
    ⟨"stroke", o.stroke.map (paintTokens options)⟩,
    numberField "fillAlpha" o.fillAlpha 1,
    numberField "strokeAlpha" o.strokeAlpha 1,
    numberField "strokeLineWidth" o.lineWidth 0,
    ⟨"strokeLineCap", givenUnless (o.cap == .butt) (constantTokens "StrokeCap" (capName o.cap))⟩,
    ⟨"strokeLineJoin", givenUnless (o.join == .miter) (constantTokens "StrokeJoin" (joinName o.join))⟩,
    numberField "strokeLineMiter" o.miterLimit 4,
    ⟨"pathFillType", givenUnless (o.fillRule == .nonZero)
      (constantTokens "PathFillType" (fillRuleName o.fillRule))⟩]

theorem labels_outlineFields (options : Options) (o : Outline) :
    (outlineFields options o).map Field.label = ["fill", "stroke", "fillAlpha", "strokeAlpha",
      "strokeLineWidth", "strokeLineCap", "strokeLineJoin", "strokeLineMiter", "pathFillType"] := rfl

/-- The tokens of a path. -/
def outlineTokens (options : Options) (o : Outline) : List Token :=
  blockTokens options "path" (fieldTokens (outlineFields options o)) (o.commands.flatMap callTokens)

section

variable (options : Options) (o : Outline)

theorem hasUnits_outlineFields : HasUnits (outlineFields options o) := by
  have hconstant {className name : String} : IsUnit (constantTokens className name) :=
    (isUnit_word className).cons (isUnit_dot.cons (isUnit_word name))
  refine .map (isUnit_paintTokens options) o.fill (.map (isUnit_paintTokens options) o.stroke ?_)
  refine .number _ o.fillAlpha 1 (.number _ o.strokeAlpha 1 (.number _ o.lineWidth 0 ?_))
  refine .givenUnless _ hconstant (.givenUnless _ hconstant (.number _ o.miterLimit 4 ?_))
  exact .givenUnless _ hconstant .nil

/-! ## Lines -/

theorem reads_paintArgument {label : String} (hlabel : isWord label = true) (paint : Option Paint) :
    List.Forall₂ ArgumentReads (paintArgument options ⟨options.namedColors, []⟩ label paint)
      (Field.tokens ⟨label, paint.map (paintTokens options)⟩) := by
  cases paint with
  | none => exact .nil
  | some paint =>
    exact .cons (argumentReads_labelled (ends_label hlabel) (argumentReads_paint options paint)) .nil

theorem reads_outlineArguments :
    List.Forall₂ ArgumentReads (outlineArguments options ⟨options.namedColors, []⟩ o)
      (fieldTokens (outlineFields options o)) := by
  have hcap : ∀ cap, Reads ("StrokeCap." ++ capName cap)
      (constantTokens "StrokeCap" (capName cap)) := by
    intro cap
    cases cap <;> decide
  have hjoin : ∀ join, Reads ("StrokeJoin." ++ joinName join)
      (constantTokens "StrokeJoin" (joinName join)) := by
    intro join
    cases join <;> decide
  have hrule : ∀ rule, Reads ("PathFillType." ++ fillRuleName rule)
      (constantTokens "PathFillType" (fillRuleName rule)) := by
    intro rule
    cases rule <;> decide
  unfold outlineArguments outlineFields
  simp only [List.append_assoc]
  refine reads_fields_cons (reads_paintArgument options (by decide) o.fill) ?_
  refine reads_fields_cons (reads_paintArgument options (by decide) o.stroke) ?_
  refine reads_fields_cons (reads_number (by decide) o.fillAlpha 1) ?_
  refine reads_fields_cons (reads_number (by decide) o.strokeAlpha 1) ?_
  refine reads_fields_cons (reads_number (by decide) o.lineWidth 0) ?_
  refine reads_fields_cons (reads_argumentUnless (by decide) (hcap o.cap) _) ?_
  refine reads_fields_cons (reads_argumentUnless (by decide) (hjoin o.join) _) ?_
  refine reads_fields_cons (reads_number (by decide) o.miterLimit 4) ?_
  exact reads_fields_singleton (reads_argumentUnless (by decide) (hrule o.fillRule) _)

/-- A path that is not styled has no arguments to leave out. -/
theorem outlineArguments_of_not_isStyled {colors : ColorStyle} {o : Outline}
    (h : o.isStyled = false) : outlineArguments options colors o = [] := by
  unfold Outline.isStyled at h
  simp only [Bool.or_eq_false_iff, bne, Bool.not_eq_false', Option.isSome_eq_false_iff,
    Option.isNone_iff_eq_none] at h
  obtain ⟨⟨⟨⟨⟨⟨⟨⟨hfill, hstroke⟩, hfillAlpha⟩, hstrokeAlpha⟩, hwidth⟩, hcap⟩, hjoin⟩, hmiter⟩,
    hrule⟩ := h
  unfold outlineArguments
  rw [hfill, hstroke, hfillAlpha, hstrokeAlpha, hwidth, hcap, hjoin, hmiter, hrule]
  rfl

/-- To ask whether a path is styled changes nothing in its arguments. -/
theorem ite_isStyled (colors : ColorStyle) :
    (if o.isStyled then outlineArguments options colors o else []) = outlineArguments options colors o := by
  cases h : o.isStyled with
  | true => rfl
  | false => exact (outlineArguments_of_not_isStyled options h).symm

theorem linesRead_outline :
    LinesRead (outlineLines options ⟨options.namedColors, []⟩ o) (outlineTokens options o) := by
  unfold outlineLines outlineTokens
  dsimp only
  rw [ite_isStyled]
  exact linesRead_block (by decide) (reads_outlineArguments options o)
    (linesRead_map reads_builderCall o.commands)

end

/-! ## What the tokens tell -/

theorem samePaint_of_map_eq {options : Options} {p q : Option Paint}
    (h : p.map (paintTokens options) = q.map (paintTokens options)) : Option.Rel SamePaint p q := by
  cases p with
  | none =>
    cases q with
    | none => exact .none
    | some q => cases h
  | some p =>
    cases q with
    | none => cases h
    | some q => exact .some (samePaint_of_paintTokens (Option.some.inj h))

/-- The tokens of a path tell everything about it but its name and the part of it that is drawn. -/
theorem sameOutline_of_tokens {options : Options} {o o' : Outline}
    (hfields : fieldTokens (outlineFields options o) = fieldTokens (outlineFields options o'))
    (hcommands : List.Forall₂ SameCommand o.commands o'.commands) : SameOutline o o' := by
  have hlabels : ((outlineFields options o).map Field.label).Nodup := by
    rw [labels_outlineFields]
    decide
  have hcap : ∀ a b, constantTokens "StrokeCap" (capName a) = constantTokens "StrokeCap" (capName b) →
      a = b := by
    intro a b
    cases a <;> cases b <;> decide
  have hjoin : ∀ a b,
      constantTokens "StrokeJoin" (joinName a) = constantTokens "StrokeJoin" (joinName b) →
      a = b := by
    intro a b
    cases a <;> cases b <;> decide
  have hrule : ∀ a b, constantTokens "PathFillType" (fillRuleName a) =
      constantTokens "PathFillType" (fillRuleName b) → a = b := by
    intro a b
    cases a <;> cases b <;> decide
  have heq := fieldTokens_inj hfields rfl hlabels
  simp only [outlineFields, numberField, List.cons.injEq, Field.mk.injEq, true_and, and_true] at heq
  obtain ⟨h₁, h₂, h₃, h₄, h₅, h₆, h₇, h₈, h₉⟩ := heq
  exact {
    commands := hcommands
    fill := samePaint_of_map_eq h₁
    stroke := samePaint_of_map_eq h₂
    fillAlpha := alike_of_givenUnless_eq h₃
    strokeAlpha := alike_of_givenUnless_eq h₄
    lineWidth := alike_of_givenUnless_eq h₅
    cap := eq_of_givenUnless_eq hcap h₆
    join := eq_of_givenUnless_eq hjoin h₇
    miterLimit := alike_of_givenUnless_eq h₈
    fillRule := eq_of_givenUnless_eq hrule h₉ }

end VectorIcon.Kotlin
