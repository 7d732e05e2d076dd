import VectorIcon.Proofs.Kotlin.Lines

/-!
# The lines of a clip

The writer of a clip decides by a depth that it is told on how many lines the clip stands; the blanks and
the comma of those lines come from the call and the blocks around it. Each block moves what it holds one
level to the right (`exists_nodesLines_enclosed`), so a clip stands exactly at the depth that it is told,
and as the last argument of its group it is followed by a comma only where calls end with one.

The line is measured with a comma in both cases. With commas after last arguments a clip is on one line
if and only if that line fits; without them a line that just fits is broken all the same
(`clip_lines`, `clip_broken_though_it_fits`).
-/

namespace VectorIcon.Kotlin

open Icon

/-! ## Depths -/

/-- The blanks before a line at a depth. -/
def Options.blanks (options : Options) (depth : Nat) : String :=
  String.ofList (List.replicate (options.indentSize * depth) ' ')

/-- Lines that are moved to a depth. -/
def Options.atDepth (options : Options) (depth : Nat) (lines : List String) : List String :=
  lines.map (options.blanks depth ++ ·)

/-- What follows the last argument of a call. -/
def Options.lastComma (options : Options) : String :=
  if options.trailingCommas then "," else ""

section

variable (options : Options)

theorem blanks_append (m n : Nat) :
    options.blanks m ++ options.blanks n = options.blanks (m + n) := by
  rw [Options.blanks, Options.blanks, Options.blanks, ← String.ofList_append,
    List.replicate_append_replicate, Nat.mul_add]

theorem blanks_one : options.blanks 1 = options.indent := by
  rw [Options.blanks, Options.indent, Nat.mul_one]

theorem length_blanks (depth : Nat) :
    (options.blanks depth).length = options.indentSize * depth := by
  simp [Options.blanks]

@[simp] theorem atDepth_nil (depth : Nat) : options.atDepth depth [] = [] := rfl

@[simp] theorem atDepth_cons (depth : Nat) (line : String) (lines : List String) :
    options.atDepth depth (line :: lines) =
      (options.blanks depth ++ line) :: options.atDepth depth lines := rfl

@[simp] theorem atDepth_append (depth : Nat) (lines lines' : List String) :
    options.atDepth depth (lines ++ lines') =
      options.atDepth depth lines ++ options.atDepth depth lines' :=
  List.map_append

theorem atDepth_zero (lines : List String) : options.atDepth 0 lines = lines := by
  simp [Options.atDepth, Options.blanks]

theorem atDepth_atDepth (m n : Nat) (lines : List String) :
    options.atDepth m (options.atDepth n lines) = options.atDepth (m + n) lines := by
  simp [Options.atDepth, ← String.append_assoc, blanks_append]

/-- What calls and blocks hold stands one level deeper. -/
theorem nested_eq_atDepth (lines : List String) :
    options.calls.nested lines = options.atDepth 1 lines := by
  rw [Options.atDepth, blanks_one]
  rfl

end

/-! ## Where a part stands -/

/-- A group around some parts, and the parts on both sides of that group. -/
structure Surrounding where
  left : List Node
  placement : Placement
  right : List Node

/-- Parts in groups, of which the outermost is the first. -/
def enclosed : List Surrounding → List Node → List Node
  | [], nodes => nodes
  | s :: around, nodes => s.left ++ .group s.placement (enclosed around nodes) :: s.right

theorem nodesLines_append (options : Options) (colors : ColorStyle) (depth : Nat)
    (nodes nodes' : List Node) :
    nodesLines options colors depth (nodes ++ nodes') =
      nodesLines options colors depth nodes ++ nodesLines options colors depth nodes' := by
  induction nodes with
  | nil => rw [nodesLines, List.nil_append, List.nil_append]
  | cons node nodes ih => rw [List.cons_append, nodesLines, nodesLines, ih, List.append_assoc]

/-- The groups around some parts put lines before and after theirs and move theirs to the right, one level
for each group. -/
theorem exists_nodesLines_enclosed (options : Options) (colors : ColorStyle)
    (around : List Surrounding) (depth : Nat) :
    ∃ before after : List String, ∀ nodes,
      nodesLines options colors depth (enclosed around nodes) =
        before ++ options.atDepth around.length (nodesLines options colors (depth + around.length) nodes)
          ++ after := by
  induction around generalizing depth with
  | nil => exact ⟨[], [], fun nodes => by simp [enclosed, atDepth_zero]⟩
  | cons s around ih =>
    obtain ⟨before, after, hinner⟩ := ih (depth + 1)
    let head := blockHead options "group" (placementArguments options depth s.placement)
    refine ⟨nodesLines options colors depth s.left ++ head ++ options.atDepth 1 before,
      options.atDepth 1 after ++ ["\x7d"] ++ nodesLines options colors depth s.right,
      fun nodes => ?_⟩
    -- the block of the outermost group moves what the groups in it have moved already
    have hbody : options.calls.nested (nodesLines options colors (depth + 1) (enclosed around nodes)) =
        options.atDepth 1 before
          ++ options.atDepth (s :: around).length
            (nodesLines options colors (depth + (s :: around).length) nodes)
          ++ options.atDepth 1 after := by
      rw [hinner, nested_eq_atDepth, atDepth_append, atDepth_append, atDepth_atDepth, List.length_cons,
        Nat.add_comm 1, Nat.add_right_comm, Nat.add_assoc]
    rw [enclosed, nodesLines_append, nodesLines, nodeLines, block, hbody]
    simp only [head, List.append_assoc]

/-! ## The clip of a group -/

/-- The single line of a clip, as code has it at a depth. -/
def clipLineAt (options : Options) (depth : Nat) (clip : List (Path.Command Float)) : String :=
  options.blanks depth ++ clipLine clip ++ options.lastComma

/-- The lines of a clip with one entry to a line, as code has them at a depth. -/
def clipLinesAt (options : Options) (depth : Nat) (clip : List (Path.Command Float)) : List String :=
  (options.blanks depth ++ "clipPathData = listOf(")
    :: clipEntries (options.blanks (depth + 1)) (clip.map pathNode)
    ++ [options.blanks depth ++ ")" ++ options.lastComma]

/-- The line of a clip fits with a comma after it, whether it has one or not. -/
def FitsWithComma (options : Options) (depth : Nat) (clip : List (Path.Command Float)) : Prop :=
  (clipLineAt options depth clip).length + (if options.trailingCommas then 0 else 1)
    ≤ options.maxLineLength

instance (options : Options) (depth : Nat) (clip : List (Path.Command Float)) :
    Decidable (FitsWithComma options depth clip) :=
  inferInstanceAs (Decidable (_ ≤ _))

section

variable {options : Options} {depth : Nat} {clip : List (Path.Command Float)}

theorem fitsWithComma_iff : FitsWithComma options depth clip ↔
    options.indentSize * depth + (clipLine clip).length + 1 ≤ options.maxLineLength := by
  rw [FitsWithComma, clipLineAt, String.length_append, String.length_append, length_blanks,
    Options.lastComma]
  cases options.trailingCommas <;> rfl

theorem atDepth_clipEntries (entries : List String) :
    options.atDepth depth (clipEntries options.indent entries) =
      clipEntries (options.blanks (depth + 1)) entries := by
  have hentry (entry : String) : options.blanks depth ++ (options.indent ++ entry) =
      options.blanks (depth + 1) ++ entry := by
    rw [← String.append_assoc, ← blanks_one, blanks_append]
  induction entries with
  | nil => rfl
  | cons entry entries ih =>
    cases entries with
    | nil => rw [clipEntries, clipEntries, atDepth_cons, hentry, atDepth_nil]
    | cons next entries =>
      have hne : next :: entries ≠ [] := List.cons_ne_nil _ _
      rw [clipEntries.eq_3 _ _ _ hne, clipEntries.eq_3 _ _ _ hne, atDepth_cons, ih, String.append_assoc,
        hentry, String.append_assoc]

/-- A clip is one argument, on one line or on several; the line that code would have decides. -/
theorem exists_clipArgument (options : Options) (depth : Nat) (hne : clip ≠ []) :
    ∃ argument lines, clipArgument options depth clip = [argument] ∧
      options.atDepth depth (endedWith options.lastComma argument) = lines ∧
      (lines = [clipLineAt options depth clip] ∨ lines = clipLinesAt options depth clip) ∧
      (lines = [clipLineAt options depth clip] ↔ FitsWithComma options depth clip) := by
  have hclip : ¬ clip.isEmpty = true := by simpa using hne
  rw [clipArgument, if_neg hclip]
  by_cases hfits : FitsWithComma options depth clip
  · rw [if_pos (fitsWithComma_iff.1 hfits)]
    have hline : options.atDepth depth (endedWith options.lastComma [clipLine clip]) =
        [clipLineAt options depth clip] := by
      rw [endedWith, atDepth_cons, atDepth_nil, ← String.append_assoc, clipLineAt]
    exact ⟨_, _, rfl, hline, .inl rfl, iff_of_true rfl hfits⟩
  · rw [if_neg fun h => hfits (fitsWithComma_iff.2 h)]
    have hlines : options.atDepth depth (endedWith options.lastComma
        ("clipPathData = listOf(" :: clipEntries options.indent (clip.map pathNode) ++ [")"])) =
        clipLinesAt options depth clip := by
      rw [endedWith_concat, atDepth_append, atDepth_cons, atDepth_clipEntries, atDepth_cons, atDepth_nil,
        ← String.append_assoc, clipLinesAt]
    refine ⟨_, _, rfl, hlines, .inr rfl, iff_of_false (fun h => ?_) hfits⟩
    have hlength := congrArg List.length h
    simp [clipLinesAt] at hlength

end

/-! ## Groups -/

/-- Only the last of some arguments may stand without a comma. -/
theorem arguments_concat (style : CallStyle) (args : List (List String)) (last : List String) :
    style.arguments (args ++ [last]) =
      args.flatMap (fun arg => style.nested (endedWith "," arg))
        ++ style.nested (endedWith (if style.trailingComma then "," else "") last) := by
  induction args with
  | nil => rfl
  | cons arg args ih =>
    rw [List.cons_append, CallStyle.arguments, ih, List.flatMap_cons, List.append_assoc]
    exact fun h => List.cons_ne_nil _ _ (List.append_eq_nil_iff.1 h).2

/-- The clip is the last argument of a group. -/
theorem placementArguments_eq (options : Options) (depth : Nat) (p : Placement)
    (clip : List (Path.Command Float)) :
    placementArguments options depth { p with clip } =
      placementArguments options depth { p with clip := [] }
        ++ clipArgument options (depth + 1) clip := by
  simp [placementArguments, clipArgument]

/-- The lines of a clip among those of its group and the parts beside it, one level deeper than these. -/
theorem exists_nodesLines_group (options : Options) (colors : ColorStyle) (depth : Nat)
    (left right children : List Node) (p : Placement) :
    ∃ before after : List String, ∀ clip argument,
      clipArgument options (depth + 1) clip = [argument] →
        nodesLines options colors depth (left ++ .group { p with clip } children :: right) =
          before ++ options.atDepth 1 (endedWith options.lastComma argument) ++ after := by
  let args := placementArguments options depth { p with clip := [] }
  let opening := "group(" :: args.flatMap fun arg => options.calls.nested (endedWith "," arg)
  let body := options.calls.nested (nodesLines options colors (depth + 1) children)
  refine ⟨nodesLines options colors depth left ++ opening,
    ") \x7b" :: body ++ ["\x7d"] ++ nodesLines options colors depth right, fun clip argument hclip => ?_⟩
  have hargs : placementArguments options depth { p with clip } = args ++ [argument] := by
    rw [placementArguments_eq, hclip]
  have hhead : blockHead options "group" (args ++ [argument]) =
      opening ++ options.atDepth 1 (endedWith options.lastComma argument) ++ [") \x7b"] := by
    rw [blockHead, if_neg (by simp), CallStyle.call, endedWith_concat, arguments_concat,
      ← nested_eq_atDepth]
    rfl
  rw [nodesLines_append, nodesLines, nodeLines, hargs, hhead, block]
  simp [body]

/-- In generated code a clip stands one level deeper than its group, as the last argument. It is on one
line or has one entry to a line; it is on one line if and only if that line fits, with a comma counted also
where code has none. -/
theorem clip_lines (options : Options) (overrides : Overrides) (icon : Icon)
    (around : List Surrounding) (left right children : List Node) (p : Placement) :
    ∃ before after : List String, ∀ clip ≠ [], ∃ lines : List String,
      (generate options overrides { icon with
        nodes := enclosed around (left ++ .group { p with clip } children :: right) }).code =
          "\n".intercalate (before ++ lines ++ after) ∧
      (lines = [clipLineAt options (around.length + 2) clip] ∨
        lines = clipLinesAt options (around.length + 2) clip) ∧
      (lines = [clipLineAt options (around.length + 2) clip] ↔
        FitsWithComma options (around.length + 2) clip) := by
  let colors : ColorStyle := ⟨options.namedColors, overrides⟩
  let head := endedWith ".apply \x7b"
    (options.calls.call "ImageVector.Builder" (iconArguments colors icon))
  have hcode (nodes : List Node) : (generate options overrides { icon with nodes }).code =
      "\n".intercalate (head ++ options.calls.nested (nodesLines options colors 1 nodes)
        ++ ["\x7d.build()"]) := rfl
  obtain ⟨outer, outer', houter⟩ := exists_nodesLines_enclosed options colors around 1
  obtain ⟨inner, inner', hinner⟩ :=
    exists_nodesLines_group options colors (1 + around.length) left right children p
  refine ⟨head ++ options.atDepth 1 outer ++ options.atDepth (1 + around.length) inner,
    options.atDepth (1 + around.length) inner' ++ options.atDepth 1 outer' ++ ["\x7d.build()"],
    fun clip hne => ?_⟩
  obtain ⟨argument, lines, hargument, hlines, hlayout⟩ :=
    exists_clipArgument options (around.length + 2) hne
  have hdepth : 1 + around.length + 1 = around.length + 2 := by omega
  refine ⟨lines, ?_, hlayout⟩
  have hparts := houter (left ++ .group { p with clip } children :: right)
  rw [hinner clip argument (by rw [hdepth, hargument])] at hparts
  have hbody : options.calls.nested (nodesLines options colors 1
      (enclosed around (left ++ .group { p with clip } children :: right))) =
        options.atDepth 1 outer ++ options.atDepth (1 + around.length) inner ++ lines
          ++ options.atDepth (1 + around.length) inner' ++ options.atDepth 1 outer' := by
    rw [hparts, nested_eq_atDepth]
    simp only [atDepth_append, atDepth_atDepth, List.append_assoc, ← hlines, ← hdepth]
    rw [← Nat.add_assoc]
  rw [hcode, hbody]
  simp only [List.append_assoc]

/-- An icon with one group, which has a clip and no parts. -/
def clipped : Icon where
  name := "x"
  width := 24
  height := 24
  viewportWidth := 24
  viewportHeight := 24
  nodes := enclosed [] ([] ++ .group { clip := [.close] } [] :: [])
  autoMirror := false
  tint := none

/-- A line that fits with its comma. -/
theorem clip_lines_clipped :
    ([.close] : List (Path.Command Float)) ≠ [] ∧ ∃ before after : List String,
      (generate { maxLineLength := 42 } [] clipped).code =
        "\n".intercalate (before ++ ["    clipPathData = listOf(PathNode.Close),"] ++ after) := by
  have hne : ([.close] : List (Path.Command Float)) ≠ [] := by decide
  obtain ⟨before, after, hlines⟩ := clip_lines { maxLineLength := 42 } [] clipped [] [] [] [] {}
  obtain ⟨lines, hcode, -, hfits⟩ := hlines [.close] hne
  rw [hfits.2 (by decide)] at hcode
  exact ⟨hne, before, after, hcode⟩

/-- Without commas after last arguments a line of the greatest length is broken. -/
theorem clip_broken_though_it_fits :
    let options : Options := { maxLineLength := 41, trailingCommas := false }
    (clipLineAt options 2 [.close]).length = options.maxLineLength ∧
      (generate options [] clipped).code = "\n".intercalate
        ["ImageVector.Builder(", "  name = \"x\",", "  defaultWidth = 24f.dp,",
          "  defaultHeight = 24f.dp,", "  viewportWidth = 24f,", "  viewportHeight = 24f",
          ").apply \x7b",
          "  group(",
          "    clipPathData = listOf(",
          "      PathNode.Close",
          "    )",
          "  ) \x7b",
          "  \x7d",
          "\x7d.build()"] := by
  decide +kernel

end VectorIcon.Kotlin
