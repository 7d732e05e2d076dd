import VectorIcon.Proofs.Kotlin.Outline

/-!
# The parameters of blocks

A block of generated code names a parameter for each field that differs from its default, in a fixed order,
and no other. Whether a path is styled, and whether a group moves its parts, is asked apart from the writing
of these parameters; both agree with what is written (`block_parameters`).
-/

namespace VectorIcon.Kotlin

open Icon

/-! ## Parameters as they are written -/

/-- The name of a parameter: its first line up to a blank. -/
def labelOf (argument : List String) : String :=
  String.ofList ((argument.headD "").toList.takeWhile (· != ' '))

/-- The first lines of a block: bare, or with parameters in parentheses. -/
def headLines (options : Options) (name : String) : List (List String) → List String
  | [] => [name ++ " \x7b"]
  | arguments => (name ++ "(") :: options.calls.arguments arguments ++ [") \x7b"]

/-- The names of the fields that differ from their defaults. -/
def given (fields : List (String × Bool)) : List String :=
  (fields.filter Prod.snd).map Prod.fst

/-- The fields of a path that may be parameters, each with whether it differs from its default. -/
def outlineDifferences (o : Outline) : List (String × Bool) :=
  let unset : Outline := {}
  [("fill", o.fill.isSome), ("stroke", o.stroke.isSome), ("fillAlpha", o.fillAlpha != unset.fillAlpha),
    ("strokeAlpha", o.strokeAlpha != unset.strokeAlpha),
    ("strokeLineWidth", o.lineWidth != unset.lineWidth), ("strokeLineCap", o.cap != unset.cap),
    ("strokeLineJoin", o.join != unset.join), ("strokeLineMiter", o.miterLimit != unset.miterLimit),
    ("pathFillType", o.fillRule != unset.fillRule)]

/-- The fields of a group that move its parts, each with whether it differs from its default. -/
def moveDifferences (p : Placement) : List (String × Bool) :=
  let unset : Placement := {}
  [("rotate", p.rotation != unset.rotation), ("pivotX", p.pivotX != unset.pivotX),
    ("pivotY", p.pivotY != unset.pivotY), ("scaleX", p.scaleX != unset.scaleX),
    ("scaleY", p.scaleY != unset.scaleY), ("translationX", p.translationX != unset.translationX),
    ("translationY", p.translationY != unset.translationY)]

/-- The parameters that move the parts of a group. -/
def moveLabels : List String :=
  ["rotate", "pivotX", "pivotY", "scaleX", "scaleY", "translationX", "translationY"]

/-- The fields of a group that may be parameters, each with whether it differs from its default. -/
def placementDifferences (p : Placement) : List (String × Bool) :=
  ("name", p.name.isSome) :: moveDifferences p ++ [("clipPathData", !p.clip.isEmpty)]

/-! ## Names -/

section

variable {options : Options} {colors : ColorStyle} {label text : String}

theorem labelOf_cons (hlabel : ' ' ∉ label.toList) (rest : String) (lines : List String) :
    labelOf ((label ++ " = " ++ rest) :: lines) = label := by
  have hpass : ∀ c ∈ label.toList, (c != ' ') = true := by
    intro c hc
    rw [bne_iff_ne]
    rintro rfl
    exact hlabel hc
  have hsign : (" = " ++ rest).toList = ' ' :: "= ".toList ++ rest.toList := String.toList_append
  show String.ofList ((label ++ " = " ++ rest).toList.takeWhile _) = label
  rw [String.append_assoc, String.toList_append, hsign, List.takeWhile_append_of_pos hpass,
    List.cons_append, List.takeWhile_cons_of_neg (by decide), List.append_nil, String.ofList_toList]

theorem given_cons (differs : Bool) (fields : List (String × Bool)) :
    given ((label, differs) :: fields) = (if differs then [label] else []) ++ given fields := by
  cases differs <;> rfl

theorem labels_argumentUnless {α : Type} [BEq α] (hlabel : ' ' ∉ label.toList) (a d : α) :
    (argumentUnless (a == d) label text).map labelOf = if a != d then [label] else [] := by
  unfold bne
  cases a == d with
  | true => rfl
  | false => exact congrArg (· :: []) (labelOf_cons hlabel text [])

theorem labels_paintArgument (hlabel : ' ' ∉ label.toList) (paint : Option Paint) :
    (paintArgument options colors label paint).map labelOf =
      if paint.isSome then [label] else [] := by
  cases paint with
  | none => rfl
  | some paint =>
    obtain ⟨line, lines, hlines⟩ : ∃ line lines, paintLines options.calls colors paint = line :: lines := by
      cases paint <;> exact ⟨_, _, rfl⟩
    rw [paintArgument, hlines]
    exact congrArg (· :: []) (labelOf_cons hlabel line lines)

theorem labels_clipArgument (depth : Nat) (clip : List (Path.Command Float)) :
    (clipArgument options depth clip).map labelOf =
      if !clip.isEmpty then ["clipPathData"] else [] := by
  have hopen : "clipPathData = listOf(" = "clipPathData" ++ " = " ++ "listOf(" := by decide +kernel
  have hlabel : ' ' ∉ "clipPathData".toList := by decide
  have hline : labelOf [clipLine clip] = "clipPathData" := by
    unfold clipLine
    rw [hopen, String.append_assoc, String.append_assoc]
    exact labelOf_cons hlabel _ []
  have hlines (lines : List String) : labelOf ("clipPathData = listOf(" :: lines) = "clipPathData" := by
    rw [hopen]
    exact labelOf_cons hlabel _ lines
  unfold clipArgument
  cases clip.isEmpty with
  | true => rfl
  | false =>
    rw [if_neg Bool.false_ne_true, Bool.not_false, if_pos rfl]
    split
    · rw [List.map_singleton, hline]
    · rw [List.map_singleton, List.cons_append, hlines]

/-- The parameters of a path are the fields that differ from their defaults. -/
theorem labels_outlineArguments (options : Options) (colors : ColorStyle) (o : Outline) :
    (outlineArguments options colors o).map labelOf = given (outlineDifferences o) := by
  unfold outlineArguments outlineDifferences
  simp only [List.map_append, given_cons]
  rw [labels_paintArgument (by decide), labels_paintArgument (by decide),
    labels_argumentUnless (by decide), labels_argumentUnless (by decide),
    labels_argumentUnless (by decide), labels_argumentUnless (by decide),
    labels_argumentUnless (by decide), labels_argumentUnless (by decide),
    labels_argumentUnless (by decide)]
  simp only [List.append_assoc]
  rw [given, List.filter_nil, List.map_nil, List.append_nil]

/-- The parameters of a group are the fields that differ from their defaults. -/
theorem labels_placementArguments (options : Options) (depth : Nat) (p : Placement) :
    (placementArguments options depth p).map labelOf = given (placementDifferences p) := by
  have hname : ((p.name.map fun name => ["name = " ++ stringLiteral name]).toList).map labelOf =
      if p.name.isSome then ["name"] else [] := by
    cases p.name with
    | none => rfl
    | some name =>
      have hlabel : ' ' ∉ "name".toList := by decide
      exact congrArg (· :: []) (labelOf_cons hlabel _ [])
  unfold placementArguments placementDifferences moveDifferences
  simp only [List.map_append, List.cons_append, given_cons]
  rw [hname, labels_clipArgument, labels_argumentUnless (by decide), labels_argumentUnless (by decide),
    labels_argumentUnless (by decide), labels_argumentUnless (by decide),
    labels_argumentUnless (by decide), labels_argumentUnless (by decide),
    labels_argumentUnless (by decide)]
  simp only [List.append_assoc, List.nil_append]
  rw [given_cons, given, List.filter_nil, List.map_nil, List.append_nil]

/-! ## Fields that differ -/

theorem given_ne_nil_iff (fields : List (String × Bool)) :
    given fields ≠ [] ↔ fields.any Prod.snd = true := by
  rw [given, ne_eq, List.map_eq_nil_iff, List.filter_eq_nil_iff]
  simp

theorem isStyled_iff (o : Outline) : o.isStyled = true ↔ given (outlineDifferences o) ≠ [] := by
  rw [given_ne_nil_iff]
  simp [outlineDifferences, Outline.isStyled, or_assoc]

theorem given_append (fields fields' : List (String × Bool)) :
    given (fields ++ fields') = given fields ++ given fields' := by
  rw [given, List.filter_append, List.map_append]
  rfl

theorem mem_of_mem_given {fields : List (String × Bool)} (h : label ∈ given fields) :
    label ∈ fields.map Prod.fst := by
  obtain ⟨field, hfield, rfl⟩ := List.mem_map.1 h
  exact List.mem_map_of_mem (List.mem_of_mem_filter hfield)

theorem isMoved_iff (p : Placement) : p.isMoved = true ↔ given (moveDifferences p) ≠ [] := by
  rw [given_ne_nil_iff]
  simp [moveDifferences, Placement.isMoved, or_assoc]

/-- The parameters that move are those of the fields that move. -/
theorem mem_given_placementDifferences (p : Placement) (h : label ∈ moveLabels) :
    label ∈ given (placementDifferences p) ↔ label ∈ given (moveDifferences p) := by
  have hother (other : String) (differs : Bool) (hne : other ∉ moveLabels) :
      label ∉ given [(other, differs)] := by
    intro hmem
    rw [List.mem_singleton.1 (mem_of_mem_given hmem)] at h
    exact hne h
  have hname := hother "name" p.name.isSome (by decide)
  have hclip := hother "clipPathData" (!p.clip.isEmpty) (by decide)
  have hfields : placementDifferences p =
      [("name", p.name.isSome)] ++ moveDifferences p ++ [("clipPathData", !p.clip.isEmpty)] := rfl
  rw [hfields, given_append, given_append, List.mem_append, List.mem_append]
  simp only [hname, hclip, false_or, or_false]

/-- A group moves its parts if and only if it has one of the parameters that move. -/
theorem isMoved_iff_exists (p : Placement) :
    p.isMoved = true ↔ ∃ label ∈ moveLabels, label ∈ given (placementDifferences p) := by
  rw [isMoved_iff]
  constructor
  · intro h
    obtain ⟨label, hlabel⟩ := List.exists_mem_of_ne_nil _ h
    have hmove : label ∈ moveLabels := mem_of_mem_given hlabel
    exact ⟨label, hmove, (mem_given_placementDifferences p hmove).2 hlabel⟩
  · rintro ⟨label, hmove, hlabel⟩
    exact List.ne_nil_of_mem ((mem_given_placementDifferences p hmove).1 hlabel)

/-! ## Blocks -/

theorem blockHead_eq_headLines (options : Options) (name : String) (arguments : List (List String)) :
    blockHead options name arguments = headLines options name arguments := by
  cases arguments with
  | nil => rfl
  | cons argument arguments => exact endedWith_concat _ _ _

/-- The lines of a path, whose parameters are written whether it is asked for being styled or not. -/
theorem outlineLines_eq (options : Options) (colors : ColorStyle) (o : Outline) :
    outlineLines options colors o =
      headLines options "path" (outlineArguments options colors o)
        ++ options.calls.nested (o.commands.map builderCall) ++ ["\x7d"] := by
  unfold outlineLines
  dsimp only
  rw [ite_isStyled, block, blockHead_eq_headLines]

theorem head?_headLines (options : Options) (name : String) (arguments : List (List String))
    (rest : List String) :
    (headLines options name arguments ++ rest).head? = some (name ++ " \x7b") ↔ arguments = [] := by
  have hopen : name ++ "(" ≠ name ++ " \x7b" := by
    rw [ne_eq, String.append_right_inj]
    decide
  cases arguments with
  | nil => exact iff_of_true rfl rfl
  | cons argument arguments =>
    exact iff_of_false (fun h => hopen (Option.some.inj h)) (List.cons_ne_nil _ _)

end

/-- The block of a path has, in order, one parameter for each field of its paint and its line that differs
from the default, and no other; a path is styled exactly when there are some. The block of a group has one
for a name, for each field that moves its parts and differs from the default, and for a clip, and no other;
the group moves its parts exactly when one of these moves, and its block is bare exactly when it has none. -/
theorem block_parameters (options : Options) (colors : ColorStyle) (depth : Nat) :
    (∀ o : Outline,
      (o.isStyled = true ↔ outlineArguments options colors o ≠ []) ∧
      ∃ arguments : List (List String),
        nodeLines options colors depth (.path o) =
          headLines options "path" arguments
            ++ options.calls.nested (o.commands.map builderCall) ++ ["\x7d"] ∧
        arguments.map labelOf = given (outlineDifferences o)) ∧
    ∀ (p : Placement) (children : List Node),
      ∃ arguments : List (List String),
        nodeLines options colors depth (.group p children) =
          headLines options "group" arguments
            ++ options.calls.nested (nodesLines options colors (depth + 1) children) ++ ["\x7d"] ∧
        arguments.map labelOf = given (placementDifferences p) ∧
        (p.isMoved = true ↔ ∃ label ∈ moveLabels, label ∈ arguments.map labelOf) ∧
        ((nodeLines options colors depth (.group p children)).head? = some "group \x7b" ↔
          given (placementDifferences p) = []) := by
  refine ⟨fun o => ⟨?_, _, ?_, labels_outlineArguments options colors o⟩, fun p children => ?_⟩
  · rw [isStyled_iff, ← labels_outlineArguments options colors o, ne_eq, List.map_eq_nil_iff]
  · rw [nodeLines, outlineLines_eq]
  · have hlabels := labels_placementArguments options depth p
    have hlines : nodeLines options colors depth (.group p children) =
        headLines options "group" (placementArguments options depth p)
          ++ options.calls.nested (nodesLines options colors (depth + 1) children) ++ ["\x7d"] := by
      rw [nodeLines, block, blockHead_eq_headLines]
    refine ⟨_, hlines, hlabels, ?_, ?_⟩
    · rw [hlabels, isMoved_iff_exists]
    · rw [hlines, List.append_assoc, ← hlabels, List.map_eq_nil_iff]
      exact head?_headLines options "group" _ _

end VectorIcon.Kotlin
