import VectorIcon.Proofs.Kotlin.Faithful
import VectorIcon.Proofs.Kotlin.ImportGroups
import VectorIcon.Proofs.Name.Words
import VectorIcon.Template.Builtin

/-!
# Code inside of a template

A built-in template writes import lines, a blank line and a declaration around the lines of the code, each of
which it may move to the right (`render_embeds_code`).

1. Code is cut into lines before it is moved. It comes apart into the lines that it was made of, since none of them
   is empty or ends with a blank (`indentLines_intercalate`).
2. Blanks are put where no literal is open, so the code opens and closes the same brackets after it was moved
   (`LaidOut.after_moved`), and inside of other brackets as well (`Brackets.after_frame`).
-/

namespace VectorIcon.Kotlin

variable {place place' : Place} {a b more : List Char} {indentSize base : Nat} {lines : List String}

/-! ## Brackets around brackets -/

theorem Brackets.step_frame {c : Char} (h : (Brackets.mk place a).step c = some ⟨place', b⟩)
    (more : List Char) : (Brackets.mk place (a ++ more)).step c = some ⟨place', b ++ more⟩ := by
  unfold Brackets.step at h ⊢
  cases place with
  | outside =>
    dsimp only at h ⊢
    split at h
    · next hquote =>
      rw [if_pos hquote]
      cases h
      rfl
    · next hquote =>
      rw [if_neg hquote]
      split at h
      · next hcloser =>
        rw [if_pos hcloser]
        split at h
        · next hhead =>
          obtain ⟨rest, rfl⟩ := List.head?_eq_some_iff.1 hhead
          cases h
          simp
        · cases h
      · next hcloser =>
        rw [if_neg hcloser]
        cases h
        simp
  | literal =>
    cases h
    rfl
  | escape =>
    cases h
    rfl

/-- What a text does with brackets, it does inside of others too. -/
theorem Brackets.after_frame {s : List Char} (h : (Brackets.mk place a).after s = some ⟨place', b⟩)
    (more : List Char) : (Brackets.mk place (a ++ more)).after s = some ⟨place', b ++ more⟩ := by
  induction s generalizing place a with
  | nil =>
    cases h
    rfl
  | cons c s ih =>
    rw [Brackets.after_cons] at h ⊢
    obtain ⟨⟨place₁, a₁⟩, hstep, hrest⟩ := Option.bind_eq_some_iff.1 h
    rw [Brackets.step_frame hstep more]
    exact ih hrest

/-! ## Lines that are moved -/

/-- The text has no quotes, no brackets and no line feeds. -/
def IsUnquoted (s : String) : Prop :=
  ∀ c ∈ s.toList, isNeutral c = true

instance : DecidablePred IsUnquoted := fun s =>
  decidable_of_iff (s.toList.all isNeutral = true) List.all_eq_true

theorem IsUnquoted.lineFeed_not_mem {s : String} (h : IsUnquoted s) : '\n' ∉ s.toList :=
  fun hline => absurd (h _ hline) (by decide)

theorem LineAt.after_moved {line lead : String} (hlead : IsUnquoted lead)
    (h : LineAt indentSize 0 a line b) :
    (Brackets.mk .outside a).after (lead ++ line).toList = some ⟨.outside, b⟩ := by
  rw [String.toList_append, Brackets.after_append, after_of_neutral hlead]
  exact h.after

/-- Lines end outside of literals, so the blanks that move them do not get into one. -/
theorem LaidOut.after_moved {lead : String} (hlead : IsUnquoted lead)
    (h : LaidOut indentSize 0 a lines b) :
    (Brackets.mk .outside a).after ("\n".intercalate (lines.map (lead ++ ·))).toList =
      some ⟨.outside, b⟩ := by
  induction h with
  | nil => rfl
  | @cons a b c line lines hline hlines ih =>
    cases lines with
    | nil =>
      cases hlines
      rw [List.map_singleton, String.intercalate_singleton]
      exact hline.after_moved hlead
    | cons next lines =>
      rw [List.map_cons, List.map_cons, String.intercalate_cons_cons, String.toList_append,
        String.toList_append, Brackets.after_append, Brackets.after_append, hline.after_moved hlead]
      exact ih

theorem LineAt.exists_getLast {line : String} (h : LineAt indentSize base a line b) :
    ∃ c, line.toList.getLast? = some c ∧ Text.isBlank c = false := by
  obtain ⟨k, text, hline, hink, -, -⟩ := h
  obtain ⟨c, hc, hblank⟩ := hink.stops
  refine ⟨c, ?_, hblank⟩
  rw [hline, List.getLast?_append, Option.mem_def.1 hc]
  rfl

theorem LaidOut.exists_getLast (h : LaidOut indentSize base a lines b) :
    ∀ line ∈ lines, ∃ c, line.toList.getLast? = some c ∧ Text.isBlank c = false := by
  induction h with
  | nil => nofun
  | cons hline _ ih => exact List.forall_mem_cons.2 ⟨hline.exists_getLast, ih⟩

end VectorIcon.Kotlin

namespace VectorIcon.Template

open Text Kotlin

variable {l : Layout} {p : Parts} {name : String} {lines : List String} {a b c : List Char}

/-! ## Lines of the code -/

/-- A line has a last character, which is no blank. -/
def IsFilled (line : String) : Prop :=
  '\n' ∉ line.toList ∧ ∃ c, line.toList.getLast? = some c ∧ isBlank c = false

/-- Lines that do not end with a blank are found again, also by a reader that takes a carriage return for a part
of the line end after it. -/
theorem lines_intercalate (h : ∀ line ∈ lines, IsFilled line) (hne : lines ≠ []) :
    Text.lines ("\n".intercalate lines).toList = lines.map String.toList := by
  have hpieces : ("\n".intercalate lines).toList.splitOn '\n' = lines.map String.toList :=
    linesOf_intercalate (fun line hline => (h line hline).1) hne
  have hends : ∀ line ∈ lines.map String.toList, ∃ c, line.getLast? = some c ∧ isBlank c = false := by
    intro chars hchars
    obtain ⟨line, hline, rfl⟩ := List.mem_map.1 hchars
    exact (h line hline).2
  have hended : ((lines.map String.toList).dropLast.map fun line =>
      if line.getLast? = some '\r' then line.dropLast else line) = (lines.map String.toList).dropLast := by
    refine (List.map_congr_left fun line hline => ?_).trans (List.map_id _)
    obtain ⟨c, hc, hblank⟩ := hends line (List.dropLast_subset _ hline)
    have hreturn : ¬ line.getLast? = some '\r' := by
      rw [hc]
      rintro heq
      cases heq
      exact absurd hblank (by decide)
    exact if_neg hreturn
  obtain ⟨start, last, hlast⟩ := List.eq_nil_or_concat (lines.map String.toList) |>.resolve_left (by simpa using hne)
  obtain ⟨c, hc, -⟩ := hends last (by rw [hlast]; simp)
  obtain ⟨d, rest, rfl⟩ : ∃ d rest, last = d :: rest := List.exists_cons_of_ne_nil (by rintro rfl; cases hc)
  unfold Text.lines
  simp only [hpieces, hended]
  rw [hlast]
  simp

/-- Lines of code are moved one by one. -/
theorem indentLines_intercalate (lead : String) (h : ∀ line ∈ lines, IsFilled line) (hne : lines ≠ []) :
    indentLines lead ("\n".intercalate lines) = "\n".intercalate (lines.map (lead ++ ·)) := by
  rw [indentLines, lines_intercalate h hne, List.map_map]
  congr 1
  refine List.map_congr_left fun line hline => ?_
  obtain ⟨-, c, hc, -⟩ := h line hline
  have hfilled : ¬ line.toList.isEmpty = true := by
    rw [List.isEmpty_iff]
    intro hnil
    rw [hnil] at hc
    cases hc
  rw [Function.comp_apply, if_neg hfilled, String.ofList_toList]

theorem code_generate (options : Options) (overrides : Overrides) (icon : Icon) :
    (generate options overrides icon).code = "\n".intercalate (builderLines options overrides icon) := by
  rw [generate, builderCode]

theorem isFilled_builderLines (options : Options) (icon : Icon) :
    ∀ line ∈ builderLines options (.ofEntries []) icon, IsFilled line := by
  have hlaid := laidOut_builderLines options icon
  exact fun line hline => ⟨hlaid.lineFeed_not_mem line hline, hlaid.exists_getLast line hline⟩

theorem builderLines_ne_nil (options : Options) (overrides : Overrides) (icon : Icon) :
    builderLines options overrides icon ≠ [] := by
  simp [builderLines]

/-! ## Lines of a declaration -/

/-- The names that a file imports around code that needs some: these, and four more for a function. -/
def importedNames (needed : List String) : Builtin → List String
  | .expression | .value | .object => needed
  | .composable =>
    ["androidx.compose.runtime.Composable", "androidx.compose.runtime.remember",
      "androidx.compose.ui.Modifier", "androidx.compose.ui.graphics.Color"] ++ needed

theorem importsOf_eq (p : Parts) (template : Builtin) :
    importsOf p template = importedNames p.imports template := by
  cases template <;> rfl

/-- The lines of a declaration before those of the code. -/
def opening (l : Layout) (name : String) : Builtin → List String
  | .expression | .value => []
  | .object =>
    ["object " ++ name ++ " \x7b", l.indent 1 ++ "val imageVector: ImageVector by lazy \x7b"]
  | .composable =>
    ["@Composable", "fun " ++ name ++ "(", l.indent 1 ++ "modifier: Modifier = Modifier,",
      l.indent 1 ++ "tint: Color = Color.Unspecified", "): ImageVector \x7b",
      l.indent 1 ++ "return remember \x7b"]

/-- The lines of a declaration after those of the code. -/
def closing (l : Layout) : Builtin → List String
  | .expression | .value => []
  | .object | .composable => [l.indent 1 ++ "\x7d", "\x7d"]

/-- What a declaration has before the first line of the code. -/
def firstLead (l : Layout) (name : String) : Builtin → String
  | .expression => ""
  | .value => "val " ++ name ++ ": ImageVector = "
  | .object | .composable => l.indent 2

/-- What a declaration has before each further line of the code. -/
def furtherLead (l : Layout) : Builtin → String
  | .expression | .value => ""
  | .object | .composable => l.indent 2

/-- Lines with a text before the first of them and another one before each of the others. -/
def led (first further : String) : List (List Char) → List (List Char)
  | [] => []
  | line :: rest => (first.toList ++ line) :: rest.map (further.toList ++ ·)

/-- The lines of the declaration of code. -/
def declarationLines (l : Layout) (name : String) (template : Builtin) (code : List (List Char)) :
    List (List Char) :=
  (opening l name template).map String.toList
    ++ led (firstLead l name template) (furtherLead l template) code
    ++ (closing l template).map String.toList

theorem isUnquoted_indent (l : Layout) (levels : Nat) : IsUnquoted (l.indent levels) := by
  intro c hc
  rw [Layout.indent, String.toList_ofList] at hc
  rw [List.eq_of_mem_replicate hc]
  decide

theorem lineFeed_not_mem_opening (hname : '\n' ∉ name.toList) (template : Builtin) :
    ∀ line ∈ opening l name template, '\n' ∉ line.toList := by
  have hunit := (isUnquoted_indent l 1).lineFeed_not_mem
  cases template <;> simp [opening, hname, hunit]

theorem lineFeed_not_mem_closing (template : Builtin) :
    ∀ line ∈ closing l template, '\n' ∉ line.toList := by
  have hunit := (isUnquoted_indent l 1).lineFeed_not_mem
  cases template <;> simp [closing, hunit]

section

variable {s t : String} {texts before after : List String}

theorem linesOf_append_break (s t : String) : linesOf (s ++ "\n" ++ t) = linesOf s ++ linesOf t := by
  rw [linesOf, String.toList_append, String.toList_append, List.append_assoc]
  exact List.splitOn_append_cons_self s.toList t.toList

/-- Texts that are joined by line feeds have the lines of all of them. -/
theorem linesOf_joined (hne : texts ≠ []) : linesOf ("\n".intercalate texts) = texts.flatMap linesOf := by
  induction texts with
  | nil => exact absurd rfl hne
  | cons s texts ih =>
    cases texts with
    | nil => rw [String.intercalate_singleton, List.flatMap_singleton]
    | cons t texts =>
      rw [String.intercalate_cons_cons, linesOf_append_break, ih (List.cons_ne_nil _ _), List.flatMap_cons (x := s)]

theorem flatMap_linesOf (h : ∀ line ∈ texts, '\n' ∉ line.toList) :
    texts.flatMap linesOf = texts.map String.toList := by
  induction texts with
  | nil => rfl
  | cons line texts ih =>
    obtain ⟨hline, htexts⟩ := List.forall_mem_cons.1 h
    rw [List.flatMap_cons, List.map_cons, linesOf, List.splitOn_eq_singleton hline, ih htexts,
      List.singleton_append]

/-- The lines of a text between lines. -/
theorem linesOf_between (hbefore : ∀ line ∈ before, '\n' ∉ line.toList)
    (hafter : ∀ line ∈ after, '\n' ∉ line.toList) (text : String) :
    linesOf ("\n".intercalate (before ++ text :: after)) =
      before.map String.toList ++ linesOf text ++ after.map String.toList := by
  rw [linesOf_joined (by simp), List.flatMap_append, List.flatMap_cons, flatMap_linesOf hbefore,
    flatMap_linesOf hafter, List.append_assoc]

theorem splitOn_append {s : List Char} (h : '\n' ∉ s) (t : List Char) :
    (s ++ t).splitOn '\n' = (t.splitOn '\n').modifyHead (s ++ ·) := by
  induction s with
  | nil =>
    show t.splitOn '\n' = (t.splitOn '\n').modifyHead id
    rw [List.modifyHead_id, id]
  | cons c s ih =>
    obtain ⟨hc, hs⟩ := List.ne_and_not_mem_of_not_mem_cons h
    have hbreak : ¬ (c == '\n') = true := by simpa using hc.symm
    rw [List.cons_append, List.splitOn_cons_eq_if_modifyHead, if_neg hbreak, ih hs, List.modifyHead_modifyHead]
    rfl

/-- A text without line feeds is put before the first line. -/
theorem linesOf_append (h : '\n' ∉ s.toList) (t : String) : linesOf (s ++ t) = led s "" (linesOf t) := by
  rw [linesOf, String.toList_append, splitOn_append h, linesOf]
  cases t.toList.splitOn '\n' with
  | nil => rfl
  | cons line rest => simp [led]

end

theorem led_same (lead : String) (ls : List (List Char)) :
    led lead lead ls = ls.map (lead.toList ++ ·) := by
  cases ls <;> rfl

theorem linesOf_indentLines {lead : String} (hlead : '\n' ∉ lead.toList)
    (h : ∀ line ∈ lines, IsFilled line) (hne : lines ≠ []) :
    linesOf (indentLines lead ("\n".intercalate lines)) =
      led lead lead (linesOf ("\n".intercalate lines)) := by
  have hmoved : ∀ line ∈ lines.map (lead ++ ·), '\n' ∉ line.toList := by
    intro moved hmem
    obtain ⟨line, hline, rfl⟩ := List.mem_map.1 hmem
    rw [String.toList_append, List.mem_append, not_or]
    exact ⟨hlead, (h line hline).1⟩
  rw [indentLines_intercalate lead h hne, linesOf_intercalate hmoved (by simpa using hne),
    linesOf_intercalate (fun line hline => (h line hline).1) hne, led_same, List.map_map, List.map_map]
  exact List.map_congr_left fun line _ => String.toList_append

/-- The lines of a declaration of code whose lines do not end with blanks. -/
theorem linesOf_declaration (template : Builtin) (hname : '\n' ∉ (declaredName p).toList)
    (hcode : p.code = "\n".intercalate lines) (h : ∀ line ∈ lines, IsFilled line) (hne : lines ≠ []) :
    linesOf (declaration l p template) =
      declarationLines l (declaredName p) template (linesOf p.code) := by
  have hmoved : linesOf (indentLines (l.indent 2) p.code) = led (l.indent 2) (l.indent 2) (linesOf p.code) :=
    hcode ▸ linesOf_indentLines (isUnquoted_indent l 2).lineFeed_not_mem h hne
  have hbetween (template : Builtin) := linesOf_between (lineFeed_not_mem_opening (l := l) hname template)
    (lineFeed_not_mem_closing (l := l) template) (indentLines (l.indent 2) p.code)
  cases template with
  | expression => simp [declaration, declarationLines, opening, closing, firstLead, furtherLead, led_same]
  | value =>
    have hfirst : '\n' ∉ (firstLead l (declaredName p) .value).toList := by simp [firstLead, hname]
    refine (linesOf_append hfirst p.code).trans ?_
    simp [declarationLines, opening, closing, furtherLead]
  | object =>
    rw [hmoved] at hbetween
    exact hbetween .object
  | composable =>
    rw [hmoved] at hbetween
    exact hbetween .composable

/-! ## Brackets of a declaration -/

/-- The text is read from outside of literals to outside of literals, with the brackets that are open before it
and after it. -/
def Turns (s : String) (before after : List Char) : Prop :=
  (Brackets.mk .outside before).after s.toList = some ⟨.outside, after⟩

instance (s : String) (before after : List Char) : Decidable (Turns s before after) :=
  inferInstanceAs (Decidable (_ = _))

/-- The brackets of the text are balanced, and all its literals are closed. -/
def IsBalanced (s : String) : Prop :=
  Turns s [] []

section

variable {s t : String} {texts rest : List String}

theorem Turns.append (hs : Turns s a b) (ht : Turns t b c) : Turns (s ++ t) a c := by
  rw [Turns, String.toList_append, Brackets.after_append, Option.mem_def.1 hs]
  exact ht

theorem turns_of_isUnquoted (h : IsUnquoted s) (a : List Char) : Turns s a a :=
  after_of_neutral h a

theorem turns_joined (hs : Turns s a b) (ht : Turns ("\n".intercalate (t :: rest)) b c) :
    Turns ("\n".intercalate (s :: t :: rest)) a c := by
  have hbreak : Turns "\n" b b := rfl
  rw [String.intercalate_cons_cons]
  exact (hs.append hbreak).append ht

theorem turns_intercalate (hs : ∀ a, Turns s a a) (h : ∀ t ∈ texts, ∀ a, Turns t a a) (a : List Char) :
    Turns (s.intercalate texts) a a := by
  induction texts with
  | nil => rw [String.intercalate_nil]; rfl
  | cons t texts ih =>
    obtain ⟨ht, htexts⟩ := List.forall_mem_cons.1 h
    cases texts with
    | nil =>
      rw [String.intercalate_singleton]
      exact ht a
    | cons u texts =>
      rw [String.intercalate_cons_cons]
      exact ((ht a).append (hs a)).append (ih htexts)

/-- Code turns no brackets, wherever it is put and however far it is moved to the right. -/
theorem turns_indentLines {lead : String} (hlead : IsUnquoted lead) (options : Options) (icon : Icon) (a : List Char) :
    Turns (indentLines lead (generate options (.ofEntries []) icon).code) a a := by
  have hmoved := (laidOut_builderLines options icon).after_moved hlead
  rw [Turns, code_generate,
    indentLines_intercalate lead (isFilled_builderLines options icon) (builderLines_ne_nil _ _ _)]
  exact Brackets.after_frame hmoved a

theorem isBalanced_declaration (template : Builtin) (hname : IsUnquoted (declaredName p)) (options : Options)
    (icon : Icon) (hcode : p.code = (generate options (.ofEntries []) icon).code) :
    IsBalanced (declaration l p template) := by
  have hunit (a : List Char) : Turns (l.indent 1) a a := turns_of_isUnquoted (isUnquoted_indent l 1) a
  have hdeclared (a : List Char) : Turns (declaredName p) a a := turns_of_isUnquoted hname a
  have hcode' : IsBalanced p.code := by
    rw [hcode, code_generate]
    exact (laidOut_builderLines options icon).after
  have hmoved (a : List Char) : Turns (indentLines (l.indent 2) p.code) a a :=
    hcode ▸ turns_indentLines (isUnquoted_indent l 2) options icon a
  have hinner : Turns (l.indent 1 ++ "\x7d") ['}', '}'] ['}'] := (hunit _).append rfl
  have houter : Turns "\x7d" ['}'] [] := rfl
  unfold declaration
  cases template with
  | expression => exact hcode'
  | value =>
    have hval : Turns "val " [] [] := turns_of_isUnquoted (by decide) []
    have htype : Turns ": ImageVector = " [] [] := turns_of_isUnquoted (by decide) []
    exact ((hval.append (hdeclared [])).append htype).append hcode'
  | object =>
    have hobject : Turns "object " [] [] := turns_of_isUnquoted (by decide) []
    have hhead : Turns ("object " ++ declaredName p ++ " \x7b") [] ['}'] :=
      (hobject.append (hdeclared [])).append rfl
    have hlazy : Turns (l.indent 1 ++ "val imageVector: ImageVector by lazy \x7b") ['}'] ['}', '}'] :=
      (hunit ['}']).append (by decide)
    exact turns_joined hhead (turns_joined hlazy (turns_joined (hmoved _) (turns_joined hinner houter)))
  | composable =>
    have hmark : Turns "@Composable" [] [] := turns_of_isUnquoted (by decide) []
    have hfun : Turns "fun " [] [] := turns_of_isUnquoted (by decide) []
    have hhead : Turns ("fun " ++ declaredName p ++ "(") [] [')'] := (hfun.append (hdeclared [])).append rfl
    have hmodifier : Turns (l.indent 1 ++ "modifier: Modifier = Modifier,") [')'] [')'] :=
      (hunit _).append (turns_of_isUnquoted (by decide) _)
    have htint : Turns (l.indent 1 ++ "tint: Color = Color.Unspecified") [')'] [')'] :=
      (hunit _).append (turns_of_isUnquoted (by decide) _)
    have hresult : Turns "): ImageVector \x7b" [')'] ['}'] := by decide
    have hremember : Turns (l.indent 1 ++ "return remember \x7b") ['}'] ['}', '}'] :=
      (hunit _).append (by decide)
    exact turns_joined hmark (turns_joined hhead (turns_joined hmodifier (turns_joined htint
      (turns_joined hresult (turns_joined hremember (turns_joined (hmoved _) (turns_joined hinner houter)))))))

/-! ## Imports -/

theorem turns_importLines {names : List String} (h : ∀ name ∈ names, IsUnquoted name)
    (a : List Char) : Turns (importLines names) a a := by
  have hbreak (a : List Char) : Turns "\n" a a := rfl
  refine turns_intercalate hbreak (fun line hline a => ?_) a
  obtain ⟨name, hname, rfl⟩ := List.mem_map.1 hline
  have himport : Turns "import " a a := turns_of_isUnquoted (by decide) a
  exact himport.append (turns_of_isUnquoted (h name hname) a)

theorem turns_formatImports {names : List String} (h : ∀ name ∈ names, IsUnquoted name)
    (byGroup : Bool) (a : List Char) : Turns (formatImports names byGroup) a a := by
  have hbreak (a : List Char) : Turns "\n\n" a a := rfl
  have hsorted : ∀ name ∈ sortedSet names, IsUnquoted name :=
    fun name hname => h name (mem_sortedSet.1 hname)
  unfold formatImports
  dsimp only
  split
  · refine turns_intercalate hbreak (fun lines hlines a => ?_) a
    obtain ⟨members, hmembers, rfl⟩ := List.mem_map.1 hlines
    obtain ⟨key, -, rfl⟩ := List.mem_map.1 hmembers
    exact turns_importLines (fun name hname => hsorted name (List.mem_filter.1 hname).1) a
  · exact turns_importLines hsorted a

theorem importLines_append_ne_empty {names : List String} (h : names ≠ []) (mark : String) (others : List String) :
    mark.intercalate (importLines names :: others) ≠ "" := by
  obtain ⟨name, rest, rfl⟩ := List.exists_cons_of_ne_nil h
  rw [importLines, List.map_cons, String.intercalate_cons_append, String.intercalate_cons_append]
  intro hempty
  exact absurd (String.append_eq_empty_iff.1 hempty).1 (by decide)

theorem sortedSet_ne_nil {names : List String} (h : names ≠ []) : sortedSet names ≠ [] := by
  obtain ⟨name, rest, rfl⟩ := List.exists_cons_of_ne_nil h
  exact List.ne_nil_of_mem (mem_sortedSet.2 List.mem_cons_self)

/-- The header of a file is empty when there is nothing to import. -/
theorem formatImports_eq_empty_iff {names : List String} {byGroup : Bool} :
    formatImports names byGroup = "" ↔ names = [] := by
  constructor
  · intro hempty
    by_contra hne
    have hsorted := sortedSet_ne_nil hne
    unfold formatImports at hempty
    dsimp only at hempty
    split at hempty
    · have hkeys : sortedSet ((sortedSet names).map groupKey) ≠ [] := sortedSet_ne_nil (by simpa using hsorted)
      obtain ⟨key, keys, hsplit⟩ := List.exists_cons_of_ne_nil hkeys
      have hkey : key ∈ (sortedSet names).map groupKey := mem_sortedSet.1 (hsplit ▸ List.mem_cons_self)
      obtain ⟨name, hname, rfl⟩ := List.mem_map.1 hkey
      have hmembers : (sortedSet names).filter (fun other => groupKey other == groupKey name) ≠ [] :=
        List.ne_nil_of_mem (List.mem_filter.2 ⟨hname, beq_self_eq_true _⟩)
      rw [grouped, hsplit, List.map_cons, List.map_cons] at hempty
      exact importLines_append_ne_empty hmembers _ _ hempty
    · have := importLines_append_ne_empty hsorted "" []
      rw [String.intercalate_singleton] at this
      exact this hempty
  · rintro rfl
    cases byGroup <;> simp [formatImports, sortedSet, grouped, importLines]

theorem required_ne_nil (icon : Icon) : required icon ≠ [] := by
  have hview : Symbol.imageVector ∈ Symbol.all.filter (Symbol.isUsed icon) :=
    List.mem_filter.2 ⟨by decide, rfl⟩
  exact List.ne_nil_of_mem (List.mem_map_of_mem hview)

theorem isUnquoted_of_mem_required {icon : Icon} : ∀ name ∈ required icon, IsUnquoted name := by
  have hpaths : ∀ s ∈ Symbol.all, IsUnquoted s.path := by decide
  intro name hname
  obtain ⟨s, hs, rfl⟩ := List.mem_map.1 hname
  exact hpaths s (List.mem_filter.1 hs).1

theorem isUnquoted_importedNames {needed : List String} (h : ∀ name ∈ needed, IsUnquoted name)
    (template : Builtin) : ∀ name ∈ importedNames needed template, IsUnquoted name := by
  cases template with
  | composable => exact List.forall_mem_append.2 ⟨by decide, h⟩
  | expression => exact h
  | value => exact h
  | object => exact h

theorem importedNames_ne_nil {needed : List String} (h : needed ≠ []) (template : Builtin) :
    importedNames needed template ≠ [] := by
  cases template with
  | composable => exact List.append_ne_nil_of_right_ne_nil _ h
  | expression => exact h
  | value => exact h
  | object => exact h

end

/-! ## The whole file -/

theorem isUnquoted_declaredName (text : String) (separator : Char) {p : Parts}
    (h : p.name = Name.ofText text separator) : IsUnquoted (declaredName p) := by
  have hicon : IsUnquoted "Icon" := by decide
  intro c hc
  rw [declaredName, String.toList_append, List.mem_append, h] at hc
  refine hc.elim (fun hown => isNeutral_of_isWordChar ?_) (hicon c)
  rw [isWordChar, (Name.isWord_ownPascal text separator).all c hown, Bool.true_or]

/-- Imports have a blank line after them. -/
theorem linesOf_withImports (l : Layout) (imports : List String) (body : String) :
    linesOf (withImports l imports body) =
      if imports = [] then linesOf body
      else linesOf (formatImports imports l.groupImports) ++ [] :: linesOf body := by
  unfold withImports
  simp only [String.isEmpty_iff, formatImports_eq_empty_iff]
  split
  · rfl
  · have hblank : "\n\n" = "\n" ++ ("" ++ "\n") := by decide
    rw [hblank, ← String.append_assoc, ← String.append_assoc, linesOf_append_break, linesOf_append_break,
      List.append_assoc]
    rfl

theorem isBalanced_withImports {l : Layout} {imports : List String} {body : String}
    (h : ∀ name ∈ imports, IsUnquoted name) (hbody : IsBalanced body) : IsBalanced (withImports l imports body) := by
  have hbreak : Turns "\n\n" [] [] := rfl
  unfold withImports
  dsimp only
  split
  · exact hbody
  · exact ((turns_formatImports h l.groupImports []).append hbreak).append hbody

theorem linesOf_render (template : Builtin) (hname : IsUnquoted (declaredName p))
    (hcode : p.code = "\n".intercalate lines) (h : ∀ line ∈ lines, IsFilled line) (hne : lines ≠ []) :
    linesOf (template.render l p) =
      if importedNames p.imports template = [] then
        declarationLines l (declaredName p) template (linesOf p.code)
      else linesOf (formatImports (importedNames p.imports template) l.groupImports)
        ++ [] :: declarationLines l (declaredName p) template (linesOf p.code) := by
  rw [Builtin.render, importsOf_eq, linesOf_withImports, linesOf_declaration template hname.lineFeed_not_mem hcode h hne]

theorem isBalanced_render (template : Builtin) (hname : IsUnquoted (declaredName p)) (options : Options)
    (icon : Icon) (hcode : p.code = (generate options (.ofEntries []) icon).code)
    (himports : ∀ name ∈ p.imports, IsUnquoted name) : IsBalanced (template.render l p) := by
  rw [Builtin.render, importsOf_eq]
  exact isBalanced_withImports (isUnquoted_importedNames himports template)
    (isBalanced_declaration template hname options icon hcode)

/-- A file of a built-in template is the import lines, a blank line, and a declaration that has the lines of the
code between lines of its own: all of them, in their order, each as it is but for what stands before it. All
brackets of the file are balanced, unless the names that are imported bring some in. -/
theorem render_embeds_code (options : Options) (icon : Icon) (text : String) (separator : Char) (l : Layout)
    (template : Builtin) :
    let generated := generate options (.ofEntries []) icon
    let parts (imports : List String) : Parts := ⟨generated.code, imports, Name.ofText text separator⟩
    let body := declarationLines l (declaredName (parts [])) template (linesOf generated.code)
    (linesOf (template.render l (parts generated.imports)) =
        linesOf (formatImports (importedNames generated.imports template) l.groupImports) ++ [] :: body ∧
      IsBalanced (template.render l (parts generated.imports))) ∧
    ∀ imports : List String,
      linesOf (template.render l (parts imports)) =
        (if importedNames imports template = [] then body
          else linesOf (formatImports (importedNames imports template) l.groupImports) ++ [] :: body) ∧
      ((∀ name ∈ imports, IsUnquoted name) → IsBalanced (template.render l (parts imports))) := by
  intro generated parts body
  have hname (imports : List String) : IsUnquoted (declaredName (parts imports)) :=
    isUnquoted_declaredName text separator rfl
  have hcode (imports : List String) :
      (parts imports).code = "\n".intercalate (builderLines options (.ofEntries []) icon) :=
    code_generate options (.ofEntries []) icon
  have hlines (imports : List String) : linesOf (template.render l (parts imports)) =
      if importedNames imports template = [] then body
      else linesOf (formatImports (importedNames imports template) l.groupImports) ++ [] :: body :=
    linesOf_render template (hname imports) (hcode imports) (isFilled_builderLines options icon)
      (builderLines_ne_nil _ _ _)
  have hbalanced (imports : List String) (h : ∀ name ∈ imports, IsUnquoted name) :
      IsBalanced (template.render l (parts imports)) :=
    isBalanced_render template (hname imports) options icon rfl h
  refine ⟨⟨?_, hbalanced _ isUnquoted_of_mem_required⟩, fun imports => ⟨hlines imports, hbalanced imports⟩⟩
  exact (hlines _).trans (if_neg (importedNames_ne_nil (required_ne_nil icon) template))

/-- A function around the code of a disc is balanced, also with other imports. -/
theorem render_embeds_code_disc :
    (∀ name ∈ ["com.example.Icons"], IsUnquoted name) ∧
      IsBalanced (Builtin.composable.render {} ⟨(generate {} (.ofEntries []) (disc none 1 none)).code,
        ["com.example.Icons"], Name.ofText "disc" '.'⟩) := by
  have hnames : ∀ name ∈ ["com.example.Icons"], IsUnquoted name := by decide
  exact ⟨hnames, ((render_embeds_code {} (disc none 1 none) "disc" '.' {} .composable).2 _).2 hnames⟩

end VectorIcon.Template
