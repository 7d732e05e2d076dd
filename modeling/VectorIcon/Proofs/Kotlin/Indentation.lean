import VectorIcon.Proofs.Kotlin.Depth

/-!
# The indentation of code

A line of code stands as deep as there are open brackets before it, less those that it closes before it
does anything else. Each writer of an argument or a part gives lines that sit; the lines of a whole icon
are written at depth zero (`laidOut_builderLines`), where the depth of a line is that of the brackets open
before it (`LineAt.standsAt`).
-/

namespace VectorIcon.Kotlin

open Icon

/-- The lines of code. -/
def linesOf (code : String) : List (List Char) :=
  code.toList.splitOn '\n'

/-- The closing brackets that a line begins with, after its blanks. -/
def leadingClosers (line : List Char) : List Char :=
  (line.dropWhile (· == ' ')).takeWhile isCloser

/-- The line stands as deep as the given number of open brackets, less those that it begins with closing,
and does not end with a blank. -/
structure StandsAt (indentSize opened : Nat) (line : List Char) : Prop where
  closes : (leadingClosers line).length ≤ opened
  blanks : (line.takeWhile (· == ' ')).length =
    indentSize * (opened - (leadingClosers line).length)
  ends : ∃ c ∈ line.getLast?, Text.isBlank c = false

/-- The brackets of the code are balanced, and each line stands as deep as those open before it. -/
structure IsIndented (indentSize : Nat) (code : String) : Prop where
  balanced : (Brackets.mk .outside []).after code.toList = some ⟨.outside, []⟩
  stands : ∀ before line after, linesOf code = before ++ line :: after →
    ∃ closers, (Brackets.mk .outside []).after (before.flatMap (· ++ ['\n'])) =
      some ⟨.outside, closers⟩ ∧ StandsAt indentSize closers.length line

/-- A line that is not moved into the parenthesis before it. -/
example : ¬ IsIndented 2 "f(\nx)" := by
  intro h
  obtain ⟨closers, hafter, hline⟩ := h.stands ["f(".toList] "x)".toList [] (by decide)
  have hopen : (Brackets.mk .outside []).after (["f(".toList].flatMap (· ++ ['\n'])) =
      some ⟨.outside, [')']⟩ := rfl
  rw [hopen] at hafter
  cases hafter
  exact absurd hline.blanks (by decide)

/-! ## Values -/

theorem isValue_floatLiteral (v : Float) : IsValue (floatLiteral v) :=
  ⟨isFlat_floatLiteral v, Stops.prepend ⟨'f', rfl, by decide⟩ _⟩

theorem starts_floatLiteral (v : Float) : Starts (floatLiteral v) := by
  cases hchars : (floatLiteral v).toList with
  | nil => simp [floatLiteral] at hchars
  | cons c rest =>
    have hc : (floatLiteral v).toList.head? = some c := by simp [hchars]
    exact starts_of_isNumberChar hc (isNumberChar_floatLiteral v c (List.mem_of_head? hc))

theorem isValue_sizeLiteral (v : Float) : IsValue (sizeLiteral v) :=
  ⟨isFlat_sizeLiteral v, Stops.prepend ⟨'p', rfl, by decide⟩ _⟩

theorem isValue_stringLiteral (text : String) : IsValue (stringLiteral text) :=
  ⟨isFlat_stringLiteral text, Stops.prepend ⟨'"', rfl, by decide⟩ _⟩

/-- A closing parenthesis is no blank. -/
theorem stops_close (text : String) : Stops (text ++ ")") :=
  Stops.prepend ⟨')', rfl, by decide⟩ text

theorem isValue_colorExpression (named : Bool) (c : Color) : IsValue (colorExpression c named) := by
  have hconstants : ∀ entry ∈ Color.constants,
      entry.1.toList.getLast?.any (!Text.isBlank ·) = true := by decide
  refine ⟨isFlat_colorExpression named c, ?_⟩
  unfold colorExpression
  cases hname : if named then c.constantName? else none with
  | some name =>
    obtain ⟨entry, hentry, rfl, -⟩ := exists_constant hname
    by_cases hsolid : c.isSolid = true
    · simp only [if_pos hsolid]
      exact (stops_of_any (hconstants entry hentry)).prepend "Color."
    · simp only [if_neg hsolid]
      exact stops_close _
  | none => exact stops_close _

theorem isValue_pointExpression (p : Point) : IsValue (pointExpression p) :=
  ⟨isFlat_pointExpression p, stops_close _⟩

theorem isValue_argumentList (c : Path.Command Float) : IsValue (argumentList c) :=
  ⟨isFlat_argumentList c, stops_close _⟩

theorem isValue_clipLine (clip : List (Path.Command Float)) : IsValue (clipLine clip) :=
  ⟨isFlat_clipLine clip, stops_close _⟩

section

variable {indentSize : Nat}

theorem sits_builderCalls (commands : List (Path.Command Float)) :
    Sits indentSize (commands.map builderCall) := by
  have hnames : ∀ letter ∈ letters, isLabel (callName letter) = true := by decide
  have hname (c : Path.Command Float) := hnames c.letter (mem_letters c.letter)
  exact sits_map (fun c => (starts_of_isLabel (hname c)).append (argumentList c))
    (fun c => (isValue_argumentList c).prepend (hname c)) commands

theorem argumentSits_pathNode (c : Path.Command Float) : ArgumentSits indentSize [pathNode c] := by
  have hnames : ∀ letter ∈ letters, isLabel (nodeName letter) = true := by decide
  unfold pathNode
  cases hletter : c.letter with
  | close =>
    have hclose := hnames .close (mem_letters _)
    show ArgumentSits indentSize [nodeName .close]
    exact argumentSits_singleton (starts_of_isLabel hclose)
      ⟨isFlat_of_isLabel hclose, 'e', rfl, by decide⟩
  | draw frame kind => exact argumentSits_line (hnames _ (mem_letters _)) (isValue_argumentList c)

end

/-! ## Paints -/

section

theorem labelled_call (style : CallStyle) (label name : String) (args : List (List String)) :
    labelled label (style.call name args) = style.call (label ++ name) args := by
  simp [CallStyle.call, labelled, String.append_assoc]

variable (options : Options)

theorem argumentSits_stop (s : Stop) : ArgumentSits options.indentSize
    [floatLiteral s.offset ++ " to " ++ colorExpression s.color options.namedColors] := by
  have hto : IsFlat " to " := isFlat_of_all (by decide)
  have hcolor := isValue_colorExpression options.namedColors s.color
  refine argumentSits_singleton (((starts_floatLiteral s.offset).append " to ").append _) ?_
  exact ⟨((isFlat_floatLiteral s.offset).append hto).append hcolor.flat, hcolor.stops.prepend _⟩

theorem argumentSits_stops (stops : List Stop) : ArgumentSits options.indentSize
    (stopsArgument options.calls ⟨options.namedColors, []⟩ stops) := by
  rw [stopsArgument, labelled_call]
  refine argumentSits_call (toList_indent options) (by decide) fun arg harg => ?_
  obtain ⟨stop, -, rfl⟩ := List.mem_map.1 harg
  exact argumentSits_stop options stop

theorem argumentSits_paint {label : String} (hlabel : isLabel label = true) (paint : Paint) :
    ArgumentSits options.indentSize
      (labelled label (paintLines options.calls ⟨options.namedColors, []⟩ paint)) := by
  have hbrush (name : String) (hname : name.toList.all isNeutral = true) {args : List (List String)}
      (hargs : ∀ arg ∈ args, ArgumentSits options.indentSize arg) :
      ArgumentSits options.indentSize (labelled label (options.calls.call name args)) := by
    rw [labelled_call]
    exact argumentSits_call (toList_indent options) (isLabel_append hlabel hname) hargs
  have hpoint {label : String} (hlabel : isLabel label = true) (p : Point) :
      ArgumentSits options.indentSize [label ++ pointExpression p] :=
    argumentSits_line hlabel (isValue_pointExpression p)
  cases paint with
  | solid color =>
    have hopens : Opens "SolidColor(" := ⟨by decide, fun _ => rfl⟩
    have hcall := (hopens.append (isFlat_colorExpression options.namedColors color)).close
    exact argumentSits_line hlabel ⟨hcall, stops_close _⟩
  | linear start finish stops =>
    refine hbrush _ (by decide) ?_
    simp only [List.forall_mem_cons, List.not_mem_nil, false_implies, implies_true, and_true]
    exact ⟨argumentSits_stops options stops, hpoint (by decide) start, hpoint (by decide) finish⟩
  | radial center radius focus stops =>
    refine hbrush _ (by decide) ?_
    simp only [List.forall_mem_cons, List.not_mem_nil, false_implies, implies_true, and_true]
    exact ⟨argumentSits_stops options stops, hpoint (by decide) center,
      argumentSits_line (by decide) (isValue_floatLiteral radius)⟩

/-! ## Paths -/

theorem argumentSits_paintArgument {label : String} (hlabel : isLabel label = true)
    (paint : Option Paint) :
    ∀ arg ∈ paintArgument options ⟨options.namedColors, []⟩ label paint,
      ArgumentSits options.indentSize arg := by
  intro arg harg
  cases paint with
  | none => cases harg
  | some paint =>
    rw [List.mem_singleton.1 harg]
    exact argumentSits_paint options (isLabel_append hlabel (by decide)) paint

theorem argumentSits_outlineArguments (o : Outline) :
    ∀ arg ∈ outlineArguments options ⟨options.namedColors, []⟩ o,
      ArgumentSits options.indentSize arg := by
  have hnumber {label : String} (hlabel : isLabel label = true) (v d : Float) :
      ∀ arg ∈ argumentUnless (v == d) label (floatLiteral v), ArgumentSits options.indentSize arg :=
    argumentSits_argumentUnless hlabel (isValue_floatLiteral v) (v == d)
  have hcap (cap : Cap) : IsValue ("StrokeCap." ++ capName cap) := by
    cases cap <;> exact ⟨isFlat_of_all (by decide), stops_of_any (by decide)⟩
  have hjoin (join : Join) : IsValue ("StrokeJoin." ++ joinName join) := by
    cases join <;> exact ⟨isFlat_of_all (by decide), stops_of_any (by decide)⟩
  have hrule (rule : FillRule) : IsValue ("PathFillType." ++ fillRuleName rule) := by
    cases rule <;> exact ⟨isFlat_of_all (by decide), stops_of_any (by decide)⟩
  simp only [outlineArguments, List.forall_mem_append]
  refine ⟨⟨⟨⟨⟨⟨⟨⟨?fill, ?stroke⟩, ?fillAlpha⟩, ?strokeAlpha⟩, ?width⟩, ?cap⟩, ?join⟩, ?limit⟩, ?rule⟩
  case fill => exact argumentSits_paintArgument options (by decide) o.fill
  case stroke => exact argumentSits_paintArgument options (by decide) o.stroke
  case fillAlpha => exact hnumber (by decide) o.fillAlpha 1
  case strokeAlpha => exact hnumber (by decide) o.strokeAlpha 1
  case width => exact hnumber (by decide) o.lineWidth 0
  case cap => exact argumentSits_argumentUnless (by decide) (hcap o.cap) _
  case join => exact argumentSits_argumentUnless (by decide) (hjoin o.join) _
  case limit => exact hnumber (by decide) o.miterLimit 4
  case rule => exact argumentSits_argumentUnless (by decide) (hrule o.fillRule) _

theorem sits_outlineLines (o : Outline) :
    Sits options.indentSize (outlineLines options ⟨options.namedColors, []⟩ o) := by
  refine sits_block options (by decide) (fun arg harg => ?_) (sits_builderCalls o.commands)
  split at harg
  · exact argumentSits_outlineArguments options o arg harg
  · cases harg

/-! ## Groups -/

/-- The entries of a clip are laid out as arguments without a trailing comma. -/
theorem clipEntries_eq_arguments (indent : String) (entries : List String) :
    clipEntries indent entries =
      CallStyle.arguments ⟨indent, false⟩ (entries.map fun e => [e]) := by
  induction entries with
  | nil => rfl
  | cons entry entries ih =>
    cases entries with
    | nil => simp [clipEntries, CallStyle.arguments, CallStyle.nested, endedWith]
    | cons next entries =>
      rw [clipEntries, ih]
      · simp [CallStyle.arguments, CallStyle.nested, endedWith, String.append_assoc]
      · exact List.cons_ne_nil _ _

theorem argumentSits_clipArgument (depth : Nat) (clip : List (Path.Command Float)) :
    ∀ arg ∈ clipArgument options depth clip, ArgumentSits options.indentSize arg := by
  intro arg harg
  have hname : isLabel "clipPathData = listOf" = true := by decide
  unfold clipArgument at harg
  split at harg
  · cases harg
  split at harg
  · rw [List.mem_singleton.1 harg]
    have hlist : Starts "clipPathData = listOf(" := (starts_of_isLabel hname).append "("
    exact argumentSits_singleton ((hlist.append _).append _) (isValue_clipLine clip)
  · let style : CallStyle := ⟨options.indent, false⟩
    have hindent : style.indent.toList = List.replicate options.indentSize ' ' :=
      toList_indent options
    have hcall : ArgumentSits options.indentSize
        (style.call "clipPathData = listOf" ((clip.map pathNode).map fun e => [e])) := by
      refine argumentSits_call hindent hname fun entry hentry => ?_
      rw [List.map_map] at hentry
      obtain ⟨c, -, rfl⟩ := List.mem_map.1 hentry
      exact argumentSits_pathNode c
    rw [List.mem_singleton.1 harg, clipEntries_eq_arguments]
    exact hcall

theorem argumentSits_placementArguments (depth : Nat) (p : Placement) :
    ∀ arg ∈ placementArguments options depth p, ArgumentSits options.indentSize arg := by
  have hlabel : isLabel "name = " = true := by decide
  have hnumber {label : String} (hlabel : isLabel label = true) (v d : Float) :
      ∀ arg ∈ argumentUnless (v == d) label (floatLiteral v), ArgumentSits options.indentSize arg :=
    argumentSits_argumentUnless hlabel (isValue_floatLiteral v) (v == d)
  simp only [placementArguments, List.forall_mem_append]
  refine ⟨⟨⟨⟨⟨⟨⟨⟨?name, ?rotate⟩, ?pivotX⟩, ?pivotY⟩, ?scaleX⟩, ?scaleY⟩, ?moveX⟩, ?moveY⟩, ?clip⟩
  case name =>
    exact argumentSits_map (fun name => argumentSits_line hlabel (isValue_stringLiteral name)) p.name
  case rotate => exact hnumber (by decide) p.rotation 0
  case pivotX => exact hnumber (by decide) p.pivotX 0
  case pivotY => exact hnumber (by decide) p.pivotY 0
  case scaleX => exact hnumber (by decide) p.scaleX 1
  case scaleY => exact hnumber (by decide) p.scaleY 1
  case moveX => exact hnumber (by decide) p.translationX 0
  case moveY => exact hnumber (by decide) p.translationY 0
  case clip => exact argumentSits_clipArgument options (depth + 1) p.clip

mutual

/-- A part may be written at any depth. -/
theorem sits_nodeLines (depth : Nat) (node : Node) :
    Sits options.indentSize (nodeLines options ⟨options.namedColors, []⟩ depth node) := by
  cases node with
  | path outline => exact sits_outlineLines options outline
  | group placement children =>
    rw [nodeLines]
    exact sits_block options (by decide) (argumentSits_placementArguments options depth placement)
      (sits_nodesLines (depth + 1) children)

theorem sits_nodesLines (depth : Nat) (nodes : List Node) :
    Sits options.indentSize (nodesLines options ⟨options.namedColors, []⟩ depth nodes) := by
  cases nodes with
  | nil => exact sits_nil
  | cons node rest =>
    rw [nodesLines]
    exact (sits_nodeLines depth node).append (sits_nodesLines depth rest)

end

/-! ## Icons -/

theorem argumentSits_iconArguments (icon : Icon) :
    ∀ arg ∈ iconArguments ⟨options.namedColors, []⟩ icon, ArgumentSits options.indentSize arg := by
  have hlabel : isLabel "tintColor = " = true := by decide
  have hvalue : IsValue "autoMirror = true" :=
    ⟨isFlat_of_all (by decide), 'e', rfl, by decide⟩
  have hmirror : ∀ arg ∈ if icon.autoMirror then [["autoMirror = true"]] else [],
      ArgumentSits options.indentSize arg := by
    intro arg harg
    cases hm : icon.autoMirror with
    | false => simp [hm] at harg
    | true =>
      rw [hm, if_pos rfl] at harg
      rw [List.mem_singleton.1 harg]
      exact argumentSits_singleton ⟨'a', rfl, by decide⟩ hvalue
  unfold iconArguments
  simp only [List.forall_mem_append, List.forall_mem_cons, List.not_mem_nil, false_implies,
    implies_true, and_true]
  refine ⟨⟨⟨?name, ?width, ?height, ?viewportWidth, ?viewportHeight⟩, ?tint⟩, hmirror⟩
  case name => exact argumentSits_line (by decide) (isValue_stringLiteral icon.name)
  case width => exact argumentSits_line (by decide) (isValue_sizeLiteral icon.width)
  case height => exact argumentSits_line (by decide) (isValue_sizeLiteral icon.height)
  case viewportWidth => exact argumentSits_line (by decide) (isValue_floatLiteral icon.viewportWidth)
  case viewportHeight => exact argumentSits_line (by decide) (isValue_floatLiteral icon.viewportHeight)
  case tint =>
    exact argumentSits_map (fun tint =>
      argumentSits_line hlabel (isValue_colorExpression options.namedColors tint)) icon.tint

theorem laidOut_builderLines (icon : Icon) :
    LaidOut options.indentSize 0 [] (builderLines options (.ofEntries []) icon) [] := by
  have hopen : IsEnding ".apply \x7b".toList := ⟨by simp [isCloser], by simp [Text.isBlank], by simp⟩
  have hname : isLabel "ImageVector.Builder" = true := by decide
  have hcall := argumentSits_call (toList_indent options) hname
    (argumentSits_iconArguments options icon)
  have hhead := (hcall.2 []).endedWith hcall.1 hopen rfl
  refine laidOut_braces (toList_indent options) hhead (sits_nodesLines options 1 icon.nodes) ?_
  exact lineAt_of_closes rfl rfl rfl ⟨')', rfl, by decide⟩ (by decide) rfl

end

/-! ## Whole code -/

section

variable {indentSize : Nat} {a b : List Char} {line : String} {lines : List String}

theorem LineAt.lineFeed_not_mem (h : LineAt indentSize 0 a line b) : '\n' ∉ line.toList := by
  obtain ⟨k, text, hline, hink, -, -⟩ := h
  rw [hline, List.mem_append, not_or]
  exact ⟨fun hmem => absurd (List.eq_of_mem_replicate hmem) (by decide), hink.line⟩

theorem after_blanks (n : Nat) (closers : List Char) :
    (Brackets.mk .outside closers).after (List.replicate n ' ') = some ⟨.outside, closers⟩ :=
  after_of_neutral (fun c hc => by rw [List.eq_of_mem_replicate hc]; decide) closers

theorem LineAt.after (h : LineAt indentSize 0 a line b) :
    (Brackets.mk .outside a).after line.toList = some ⟨.outside, b⟩ := by
  obtain ⟨k, text, hline, -, -, hafter⟩ := h
  rw [hline, Brackets.after_append, after_blanks]
  exact hafter

/-- Where the base is zero, a line stands as deep as the brackets that are open before it. -/
theorem LineAt.standsAt (h : LineAt indentSize 0 a line b) :
    StandsAt indentSize a.length line.toList := by
  obtain ⟨k, text, hline, hink, hdepth, -⟩ := h
  obtain ⟨c, hc, hblank⟩ := hink.starts
  obtain ⟨rest, rfl⟩ := List.head?_eq_some_iff.1 hc
  have hblanks : ∀ d ∈ List.replicate (indentSize * k) ' ', (d == ' ') = true := by
    intro d hd
    rw [List.eq_of_mem_replicate hd]
    rfl
  have hcount : (line.toList.takeWhile (· == ' ')).length = indentSize * k := by
    rw [hline, List.takeWhile_append_of_pos hblanks,
      List.takeWhile_cons_of_neg (by simpa using hblank)]
    simp
  have hclosers : leadingClosers line.toList = (c :: rest).takeWhile isCloser := by
    rw [leadingClosers, hline, List.dropWhile_append_of_pos hblanks,
      List.dropWhile_cons_of_neg (by simpa using hblank)]
  obtain ⟨d, hd, hend⟩ := hink.stops
  refine ⟨?_, ?_, d, ?_, hend⟩
  · rw [hclosers]
    omega
  · rw [hcount, hclosers]
    congr 1
    omega
  · rw [hline, List.getLast?_append, Option.mem_def.1 hd]
    rfl

/-- A line break leaves the brackets as they are. -/
theorem LineAt.after_break (h : LineAt indentSize 0 a line b) (rest : List Char) :
    (Brackets.mk .outside a).after (line.toList ++ ['\n'] ++ rest) =
      (Brackets.mk .outside b).after rest := by
  rw [Brackets.after_append, Brackets.after_append, h.after]
  rfl

theorem LaidOut.after (h : LaidOut indentSize 0 a lines b) :
    (Brackets.mk .outside a).after ("\n".intercalate lines).toList = some ⟨.outside, b⟩ := by
  induction h with
  | nil => rfl
  | @cons a b c line lines hline hlines ih =>
    cases lines with
    | nil =>
      cases hlines
      rw [String.intercalate_singleton]
      exact hline.after
    | cons next lines =>
      rw [String.intercalate_cons_cons, String.toList_append, String.toList_append]
      exact (hline.after_break _).trans ih

/-- Each line stands as deep as the lines before it have opened brackets. -/
theorem LaidOut.standsAt (h : LaidOut indentSize 0 a lines b) :
    ∀ before line after, lines.map String.toList = before ++ line :: after →
      ∃ closers, (Brackets.mk .outside a).after (before.flatMap (· ++ ['\n'])) =
        some ⟨.outside, closers⟩ ∧ StandsAt indentSize closers.length line := by
  induction h with
  | nil =>
    intro before line after hsplit
    cases before <;> cases hsplit
  | @cons a b c first lines hfirst hlines ih =>
    intro before line after hsplit
    cases before with
    | nil =>
      obtain ⟨rfl, -⟩ := List.cons.inj hsplit
      exact ⟨a, rfl, hfirst.standsAt⟩
    | cons next before =>
      obtain ⟨rfl, hrest⟩ := List.cons.inj hsplit
      rw [List.flatMap_cons, hfirst.after_break]
      exact ih before line after hrest

theorem LaidOut.lineFeed_not_mem (h : LaidOut indentSize 0 a lines b) :
    ∀ line ∈ lines, '\n' ∉ line.toList := by
  induction h with
  | nil => nofun
  | cons hline _ ih => exact List.forall_mem_cons.2 ⟨hline.lineFeed_not_mem, ih⟩

/-- Lines are read back from the text that they are joined to. -/
theorem linesOf_intercalate (h : ∀ line ∈ lines, '\n' ∉ line.toList) (hne : lines ≠ []) :
    linesOf ("\n".intercalate lines) = lines.map String.toList := by
  rw [linesOf, String.toList_intercalate]
  refine List.splitOn_intercalate '\n' (fun chars hchars => ?_) (by simpa using hne)
  obtain ⟨line, hline, rfl⟩ := List.mem_map.1 hchars
  exact h line hline

/-- Lines at base zero are indented code. -/
theorem isIndented_of_laidOut (h : LaidOut indentSize 0 [] lines []) (hne : lines ≠ []) :
    IsIndented indentSize ("\n".intercalate lines) := by
  refine ⟨h.after, fun before line after hsplit => ?_⟩
  rw [linesOf_intercalate h.lineFeed_not_mem hne] at hsplit
  exact h.standsAt before line after hsplit

end

/-- Generated code is well nested and exactly indented, in any layout. -/
theorem isIndented_generate (options : Options) (icon : Icon) :
    IsIndented options.indentSize (generate options (.ofEntries []) icon).code :=
  isIndented_of_laidOut (laidOut_builderLines options icon) (by simp [builderLines])

end VectorIcon.Kotlin
