import VectorIcon.Proofs.Kotlin.Outline
import VectorIcon.Proofs.Kotlin.Placement

/-!
# Code tells the icon

1. `reads_builderCode`: whatever the layout, the code of an icon has the tokens `iconTokens`, in which
   there are no lines, no indentation and no choice of layout left.
2. `sameNode_of_nodeTokens`: the tokens of a part tell the part, and what follows it, by induction on
   the tree.
3. `sameIcon_of_builderCode_eq`: icons with the same code agree in all that code has a place for.
-/

namespace VectorIcon.Kotlin

open Icon

/-! ## Parts -/

mutual

/-- The tokens of a part. -/
def nodeTokens (options : Options) : Node → List Token
  | .path o => outlineTokens options o
  | .group p children =>
    blockTokens options "group" (fieldTokens (placementFields p)) (nodesTokens options children)

/-- The tokens of a list of parts. -/
def nodesTokens (options : Options) : List Node → List Token
  | [] => []
  | node :: rest => nodeTokens options node ++ nodesTokens options rest

end

theorem nodesTokens_eq_flatMap (options : Options) (nodes : List Node) :
    nodesTokens options nodes = nodes.flatMap (nodeTokens options) := by
  induction nodes with
  | nil => rfl
  | cons node nodes ih => rw [nodesTokens, List.flatMap_cons, ih]

theorem nodeTokens_start (options : Options) (node : Node) :
    ∃ s rest, nodeTokens options node = .word s :: rest := by
  cases node with
  | path o => exact ⟨"path", _, by rw [nodeTokens, outlineTokens, blockTokens, List.cons_append]⟩
  | group p children => exact ⟨"group", _, by rw [nodeTokens, blockTokens, List.cons_append]⟩

mutual

theorem linesRead_node (options : Options) (depth : Nat) (node : Node) :
    LinesRead (nodeLines options ⟨options.namedColors, []⟩ depth node) (nodeTokens options node) := by
  cases node with
  | path o =>
    rw [nodeLines, nodeTokens]
    exact linesRead_outline options o
  | group p children =>
    rw [nodeLines, nodeTokens]
    exact linesRead_block (by decide) (reads_placementArguments options depth p)
      (linesRead_nodes options (depth + 1) children)

theorem linesRead_nodes (options : Options) (depth : Nat) (nodes : List Node) :
    LinesRead (nodesLines options ⟨options.namedColors, []⟩ depth nodes)
      (nodesTokens options nodes) := by
  cases nodes with
  | nil =>
    rw [nodesLines, nodesTokens]
    exact .nil
  | cons node rest =>
    rw [nodesLines, nodesTokens]
    exact (linesRead_node options depth node).append (linesRead_nodes options depth rest)

end

section

variable {options : Options}

theorem sameCommands_of_tokens {l l' : List (Path.Command Float)} {ts us : List Token}
    (h : l.flatMap callTokens ++ .mark '}' :: ts = l'.flatMap callTokens ++ .mark '}' :: us) :
    List.Forall₂ SameCommand l l' ∧ ts = us := by
  refine sequence_append_inj ?_ ?_ h
  · intro c
    exact ⟨callName c.letter, argumentListTokens c, rfl⟩
  · intro c _ d ts us heq
    exact sameCommand_of_callTokens heq

/-- The tokens of a part tell the part, and what follows it. -/
theorem sameNode_of_nodeTokens (node node' : Node) (ts us : List Token)
    (h : nodeTokens options node ++ ts = nodeTokens options node' ++ us) :
    SameNode node node' ∧ ts = us := by
  match node, node' with
  | .path o, .path o' =>
    rw [nodeTokens, nodeTokens] at h
    obtain ⟨-, hfields, hbody⟩ := blockTokens_append_inj (hasUnits_outlineFields options o).isUnit
      (hasUnits_outlineFields options o').isUnit h
    obtain ⟨hcommands, hrest⟩ := sameCommands_of_tokens hbody
    exact ⟨.path (sameOutline_of_tokens hfields hcommands), hrest⟩
  | .path o, .group p children =>
    rw [nodeTokens, nodeTokens] at h
    obtain ⟨hname, -⟩ := blockTokens_append_inj (hasUnits_outlineFields options o).isUnit
      (hasUnits_placementFields p).isUnit h
    exact absurd hname (by decide)
  | .group p children, .path o =>
    rw [nodeTokens, nodeTokens] at h
    obtain ⟨hname, -⟩ := blockTokens_append_inj (hasUnits_placementFields p).isUnit
      (hasUnits_outlineFields options o).isUnit h
    exact absurd hname (by decide)
  | .group p children, .group p' children' =>
    rw [nodeTokens, nodeTokens] at h
    obtain ⟨-, hfields, hbody⟩ := blockTokens_append_inj (hasUnits_placementFields p).isUnit
      (hasUnits_placementFields p').isUnit h
    rw [nodesTokens_eq_flatMap, nodesTokens_eq_flatMap] at hbody
    obtain ⟨hchildren, hrest⟩ := sequence_append_inj (nodeTokens_start options)
      (fun child _ => sameNode_of_nodeTokens child) hbody
    exact ⟨.group (samePlacement_of_tokens hfields) hchildren, hrest⟩

end

/-! ## Icons -/

def sizeTokens (v : Float) : List Token :=
  numberTokens v ++ [Token.mark '.', .word "dp"]

/-- The arguments of an icon. -/
def iconFields (options : Options) (icon : Icon) : List Field :=
  [⟨"name", some [.literal icon.name]⟩,
    ⟨"defaultWidth", some (sizeTokens icon.width)⟩,
    ⟨"defaultHeight", some (sizeTokens icon.height)⟩,
    ⟨"viewportWidth", some (numberTokens icon.viewportWidth)⟩,
    ⟨"viewportHeight", some (numberTokens icon.viewportHeight)⟩,
    ⟨"tintColor", icon.tint.map (colorTokens options.namedColors)⟩,
    ⟨"autoMirror", givenUnless (!icon.autoMirror) [.word "true"]⟩]

theorem labels_iconFields (options : Options) (icon : Icon) :
    (iconFields options icon).map Field.label = ["name", "defaultWidth", "defaultHeight", "viewportWidth",
      "viewportHeight", "tintColor", "autoMirror"] := rfl

/-- What opens the parts of an icon, and what stands behind them. -/
def applyTokens (body : List Token) : List Token :=
  .mark '.' :: .word "apply" :: .mark '{' ::
    (body ++ Token.mark '}' :: .mark '.' :: .word "build" :: [.mark '(', .mark ')'])

/-- The tokens of the code of an icon. -/
def iconTokens (options : Options) (icon : Icon) : List Token :=
  .word "ImageVector" :: .mark '.' :: .word "Builder" ::
    (arguments options.trailingCommas (fieldTokens (iconFields options icon)) ++
      applyTokens (nodesTokens options icon.nodes))

theorem hasUnits_iconFields (options : Options) (icon : Icon) : HasUnits (iconFields options icon) := by
  have hsize (v : Float) : IsUnit (sizeTokens v) :=
    (isUnit_numberTokens v).append (isUnit_dot.cons (isUnit_word "dp"))
  refine .given (isUnit_literal icon.name) (.given (hsize icon.width) (.given (hsize icon.height) ?_))
  refine .given (isUnit_numberTokens _) (.given (isUnit_numberTokens _) ?_)
  exact .map (isUnit_colorTokens _) icon.tint (.givenUnless _ (isUnit_word "true") .nil)

theorem reads_iconArguments (options : Options) (icon : Icon) :
    List.Forall₂ ArgumentReads (iconArguments ⟨options.namedColors, []⟩ icon)
      (fieldTokens (iconFields options icon)) := by
  have hname : Ends "name = " [.word "name", .mark '='] := by decide
  have hwidth : Ends "defaultWidth = " [.word "defaultWidth", .mark '='] := by decide
  have hheight : Ends "defaultHeight = " [.word "defaultHeight", .mark '='] := by decide
  have hviewportWidth : Ends "viewportWidth = " [.word "viewportWidth", .mark '='] := by decide
  have hviewportHeight : Ends "viewportHeight = " [.word "viewportHeight", .mark '='] := by decide
  have htint : List.Forall₂ ArgumentReads
      (icon.tint.map fun tint => ["tintColor = " ++ colorExpression tint options.namedColors]).toList
      (Field.tokens ⟨"tintColor", icon.tint.map (colorTokens options.namedColors)⟩) := by
    have hlabel : Ends "tintColor = " [.word "tintColor", .mark '='] := by decide
    cases icon.tint with
    | none => exact .nil
    | some tint =>
      exact .cons (argumentReads_line hlabel (reads_colorExpression options.namedColors tint)) .nil
  have hmirror : List.Forall₂ ArgumentReads (if icon.autoMirror then [["autoMirror = true"]] else [])
      (Field.tokens ⟨"autoMirror", givenUnless (!icon.autoMirror) [.word "true"]⟩) := by
    have hline : Reads "autoMirror = true" [.word "autoMirror", .mark '=', .word "true"] := by decide
    cases icon.autoMirror with
    | false => exact .nil
    | true => exact .cons (argumentReads_singleton hline) .nil
  have hrest := reads_fields_cons htint (reads_fields_singleton hmirror)
  unfold iconArguments
  rw [List.append_assoc]
  refine .cons (argumentReads_line hname (ends_stringLiteral icon.name).reads) ?_
  refine .cons (argumentReads_line hwidth (reads_sizeLiteral icon.width)) ?_
  refine .cons (argumentReads_line hheight (reads_sizeLiteral icon.height)) ?_
  refine .cons (argumentReads_line hviewportWidth (reads_floatLiteral icon.viewportWidth)) ?_
  refine .cons (argumentReads_line hviewportHeight (reads_floatLiteral icon.viewportHeight)) ?_
  exact hrest

/-- The code of an icon reads as the tokens of the icon. -/
theorem reads_builderCode (options : Options) (icon : Icon) :
    Reads (builderCode options (.ofEntries []) icon) (iconTokens options icon) := by
  have hname : Reads "ImageVector.Builder" [.word "ImageVector", .mark '.', .word "Builder"] := by
    decide
  have happly : Reads (")" ++ ".apply \x7b") [.mark ')', .mark '.', .word "apply", .mark '{'] := by
    decide
  have hbuild : Reads "\x7d.build()"
      [.mark '}', .mark '.', .word "build", .mark '(', .mark ')'] := by decide
  have hhead := LinesRead.callThen (ends_indent options) hname (reads_iconArguments options icon) happly
  have hnodes := (linesRead_nodes options 1 icon.nodes).nested (ends_indent options)
  have hlines := (hhead.append hnodes).append (.singleton hbuild)
  have htokens : [Token.word "ImageVector", .mark '.', .word "Builder"] ++
      (arguments options.trailingCommas (fieldTokens (iconFields options icon)) ++
        [Token.mark '.', .word "apply", .mark '{']) ++ nodesTokens options icon.nodes ++
      [Token.mark '}', .mark '.', .word "build", .mark '(', .mark ')'] = iconTokens options icon := by
    simp only [iconTokens, applyTokens, List.append_assoc, List.cons_append, List.nil_append]
  rw [← htokens]
  refine reads_of_linesRead ?_
  unfold builderLines
  dsimp only
  rw [CallStyle.call, endedWith_concat]
  exact hlines

/-- Icons with the same tokens agree in all that code has a place for. -/
theorem sameIcon_of_iconTokens {options : Options} {a b : Icon}
    (h : iconTokens options a = iconTokens options b) : SameIcon a b := by
  have hlabels : ((iconFields options a).map Field.label).Nodup := by
    rw [labels_iconFields]
    decide
  have hmirror : ∀ a b, givenUnless (!a) [.word "true"] = givenUnless (!b) [.word "true"] → a = b := by
    decide
  have htail := (List.cons.inj (List.cons.inj (List.cons.inj h).2).2).2
  obtain ⟨hfields, hrest⟩ := arguments_append_inj (hasUnits_iconFields options a).isUnit
    (hasUnits_iconFields options b).isUnit htail
  have hrest := (List.cons.inj (List.cons.inj (List.cons.inj hrest).2).2).2
  rw [nodesTokens_eq_flatMap, nodesTokens_eq_flatMap] at hrest
  obtain ⟨hnodes, -⟩ := sequence_append_inj (nodeTokens_start options)
    (fun child _ => sameNode_of_nodeTokens child) hrest
  have heq := fieldTokens_inj hfields rfl hlabels
  simp only [iconFields, List.cons.injEq, Field.mk.injEq, Option.some.injEq, true_and, and_true,
    Token.literal.injEq] at heq
  obtain ⟨h₁, h₂, h₃, h₄, h₅, h₆, h₇⟩ := heq
  exact {
    name := h₁
    width := (numberTokens_append_inj h₂).1
    height := (numberTokens_append_inj h₃).1
    viewportWidth := alike_of_numberTokens h₄
    viewportHeight := alike_of_numberTokens h₅
    tint := Option.map_injective (fun c d => colorTokens_inj) h₆
    autoMirror := hmirror _ _ h₇
    nodes := hnodes }

/-- Icons with the same code agree in all that code has a place for. -/
theorem sameIcon_of_builderCode_eq {options : Options} {a b : Icon}
    (h : builderCode options (.ofEntries []) a = builderCode options (.ofEntries []) b) :
    SameIcon a b := by
  have htokens := congrArg tokensOf h
  rw [(reads_builderCode options a).1, (reads_builderCode options b).1] at htokens
  exact sameIcon_of_iconTokens htokens

/-- A disc with a name, a part of its rim and a focus of its paint, none of which code has a place for. -/
def disc (name : Option String) (trimEnd : Float) (focus : Option Point) : Icon where
  name := "Disc"
  width := 24
  height := 24
  viewportWidth := 24
  viewportHeight := 24
  nodes := [.group { rotation := 45, clip := [.moveTo .absolute 2 2, .close] }
    [.path {
      name, trimEnd
      commands := [.moveTo .absolute 2 12, .arcTo .relative 10 10 0 true false 20 0, .close]
      fill := some (.radial ⟨12, 12⟩ 10 focus [⟨0, .black⟩, ⟨1, .transparent⟩]) }]]
  autoMirror := false
  tint := none

theorem sameIcon_disc :
    builderCode {} (.ofEntries []) (disc (some "rim") 0.5 (some ⟨6, 6⟩)) =
        builderCode {} (.ofEntries []) (disc none 1 none) ∧
      SameIcon (disc (some "rim") 0.5 (some ⟨6, 6⟩)) (disc none 1 none) :=
  ⟨rfl, @sameIcon_of_builderCode_eq {} _ _ rfl⟩

end VectorIcon.Kotlin
