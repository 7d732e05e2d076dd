import VectorIcon.Proofs.Kotlin.Block

/-!
# Groups as tokens

A group is a block whose arguments are its name, its moves and its clip. The clip is laid out on one line
or on many, as it fits, and reads as the same list on both (`reads_clipArgument`).
-/

namespace VectorIcon.Kotlin

open Icon

/-- The tokens of a clip. -/
def clipTokens (clip : List (Path.Command Float)) : List Token :=
  .word "listOf" :: arguments false (clip.map entryTokens)

/-- The arguments of a group. -/
def placementFields (p : Placement) : List Field :=
  [⟨"name", p.name.map fun name => [.literal name]⟩,
    numberField "rotate" p.rotation 0,
    numberField "pivotX" p.pivotX 0,
    numberField "pivotY" p.pivotY 0,
    numberField "scaleX" p.scaleX 1,
    numberField "scaleY" p.scaleY 1,
    numberField "translationX" p.translationX 0,
    numberField "translationY" p.translationY 0,
    ⟨"clipPathData", givenUnless p.clip.isEmpty (clipTokens p.clip)⟩]

theorem labels_placementFields (p : Placement) :
    (placementFields p).map Field.label = ["name", "rotate", "pivotX", "pivotY", "scaleX", "scaleY",
      "translationX", "translationY", "clipPathData"] := rfl

theorem isUnit_entry (clip : List (Path.Command Float)) : ∀ u ∈ clip.map entryTokens, IsUnit u :=
  isUnit_of_mem_map isUnit_entryTokens clip

theorem hasUnits_placementFields (p : Placement) : HasUnits (placementFields p) := by
  refine .map isUnit_literal p.name (.number _ p.rotation 0 ?_)
  refine .number _ p.pivotX 0 (.number _ p.pivotY 0 (.number _ p.scaleX 1 (.number _ p.scaleY 1 ?_)))
  refine .number _ p.translationX 0 (.number _ p.translationY 0 ?_)
  exact .givenUnless _ (isUnit_call (isUnit_entry p.clip)) .nil

/-! ## Lines -/

theorem linesRead_clipEntries {indent : String} (hindent : Ends indent []) {entries : List String}
    {tss : List (List Token)} (h : List.Forall₂ Reads entries tss) :
    LinesRead (clipEntries indent entries) (separated false tss) := by
  have hcomma : Reads "," [.mark ','] := by decide
  induction h with
  | nil => exact .nil
  | @cons entry ts entries tss hentry hentries ih =>
    have hline := hindent.append_reads hentry
    cases hentries with
    | nil =>
      rw [clipEntries, separated, furtherArguments, if_neg Bool.false_ne_true, List.append_nil]
      exact .singleton hline
    | @cons next us entries tss hnext hentries =>
      have hall := LinesRead.cons (hline.append_reads hcomma (by decide)) ih
      rw [separated, List.append_assoc] at hall
      rw [clipEntries, separated, furtherArguments]
      · exact hall
      · exact List.cons_ne_nil _ _

/-- The layout of a clip is not seen in its tokens. -/
theorem reads_clipArgument (options : Options) (depth : Nat) (clip : List (Path.Command Float)) :
    List.Forall₂ ArgumentReads (clipArgument options depth clip)
      (Field.tokens ⟨"clipPathData", givenUnless clip.isEmpty (clipTokens clip)⟩) := by
  have hhead : Ends "clipPathData = listOf("
    ([.word "clipPathData", .mark '=', .word "listOf"] ++ [.mark '(']) := by decide
  have hentries := forall₂_map_map reads_pathNode clip
  unfold clipArgument
  cases hempty : clip.isEmpty with
  | true => exact .nil
  | false =>
    rw [if_neg Bool.false_ne_true]
    split
    · exact .cons (argumentReads_singleton (reads_callLine hhead hentries)) .nil
    · have hlines := linesRead_clipEntries (ends_indent options) hentries
      have hall := LinesRead.cons hhead.reads (hlines.append (.singleton reads_close))
      exact .cons ⟨List.cons_ne_nil _ _, hall⟩ .nil

theorem reads_placementArguments (options : Options) (depth : Nat) (p : Placement) :
    List.Forall₂ ArgumentReads (placementArguments options depth p)
      (fieldTokens (placementFields p)) := by
  have hname : List.Forall₂ ArgumentReads
      (p.name.map fun name => ["name = " ++ stringLiteral name]).toList
      (Field.tokens ⟨"name", p.name.map fun name => [.literal name]⟩) := by
    have hlabel : Ends "name = " [.word "name", .mark '='] := by decide
    cases p.name with
    | none => exact .nil
    | some name => exact .cons (argumentReads_line hlabel (ends_stringLiteral name).reads) .nil
  unfold placementArguments placementFields
  simp only [List.append_assoc]
  refine reads_fields_cons hname ?_
  refine reads_fields_cons (reads_number (by decide) p.rotation 0) ?_
  refine reads_fields_cons (reads_number (by decide) p.pivotX 0) ?_
  refine reads_fields_cons (reads_number (by decide) p.pivotY 0) ?_
  refine reads_fields_cons (reads_number (by decide) p.scaleX 1) ?_
  refine reads_fields_cons (reads_number (by decide) p.scaleY 1) ?_
  refine reads_fields_cons (reads_number (by decide) p.translationX 0) ?_
  refine reads_fields_cons (reads_number (by decide) p.translationY 0) ?_
  exact reads_fields_singleton (reads_clipArgument options (depth + 1) p.clip)

/-! ## What the tokens tell -/

theorem sameClip_of_clipTokens {clip clip' : List (Path.Command Float)}
    (h : clipTokens clip = clipTokens clip') : List.Forall₂ SameCommand clip clip' := by
  have hlists := arguments_inj (isUnit_entry clip) (isUnit_entry clip') (List.cons.inj h).2
  exact forall₂_of_map_eq (fun c d => sameCommand_of_entryTokens) hlists

/-- The tokens of the arguments of a group tell everything about it but its children. -/
theorem samePlacement_of_tokens {p q : Placement}
    (h : fieldTokens (placementFields p) = fieldTokens (placementFields q)) : SamePlacement p q := by
  have hlabels : ((placementFields p).map Field.label).Nodup := by
    rw [labels_placementFields]
    decide
  have hliteral {a b : String} (h : [Token.literal a] = [.literal b]) : a = b :=
    Token.literal.inj (List.cons.inj h).1
  have hempty {clip clip' : List (Path.Command Float)} (h : clip.isEmpty = true)
      (h' : clip'.isEmpty = true) : List.Forall₂ SameCommand clip clip' := by
    rw [List.isEmpty_iff.1 h, List.isEmpty_iff.1 h']
    exact .nil
  have heq := fieldTokens_inj h rfl hlabels
  simp only [placementFields, numberField, List.cons.injEq, Field.mk.injEq, true_and, and_true] at heq
  obtain ⟨h₁, h₂, h₃, h₄, h₅, h₆, h₇, h₈, h₉⟩ := heq
  exact {
    name := Option.map_injective (fun a b => hliteral) h₁
    rotation := alike_of_givenUnless_eq h₂
    pivotX := alike_of_givenUnless_eq h₃
    pivotY := alike_of_givenUnless_eq h₄
    scaleX := alike_of_givenUnless_eq h₅
    scaleY := alike_of_givenUnless_eq h₆
    translationX := alike_of_givenUnless_eq h₇
    translationY := alike_of_givenUnless_eq h₈
    clip := of_givenUnless_eq List.isEmpty hempty sameClip_of_clipTokens h₉ }

end VectorIcon.Kotlin
