import VectorIcon.Proofs.Svg.Likeness

/-!
# Inline style before attributes

A property that the inline style of an element declares is decided by the last declaration of it. What
the attribute of that name says, and what earlier declarations say, is not read at all, so that it can
be changed in any elements of a document without any change to the drawing or to the warnings
(`read_of_restyled`). Without a declaration the attribute decides, without the blanks around it.

A style is seen here as text: its parts between semicolons, each with a key before its first colon.
-/

namespace VectorIcon.Svg

open Text Markup

/-- The parts of an inline style, one for each declaration. -/
def styleParts (style : String) : List (List Char) :=
  style.toList.splitOnP (· == ';')

/-- A part of a style declares a property: its name stands before the first colon, in letters of either
case and perhaps with blanks around it. -/
def Declares (property : String) (part : List Char) : Prop :=
  ∃ key value, part = key ++ ':' :: value ∧ ':' ∉ key ∧ lower (trim key) = property.toList

/-- The inline style of an element declares a property. -/
def StyleDeclares (e : Element) (property : String) : Prop :=
  ∃ style, e.attribute? "style" = some style ∧ ∃ part ∈ styleParts style, Declares property part

/-- Styles that differ in the value of a declaration, after which its property is declared again. -/
def Overwritten (property style style' : String) : Prop :=
  ∃ before key value value' after,
    styleParts style = before ++ (key ++ ':' :: value) :: after ∧
    styleParts style' = before ++ (key ++ ':' :: value') :: after ∧
    ':' ∉ key ∧ lower (trim key) = property.toList ∧ ∃ part ∈ after, Declares property part

/-- Elements that differ in what is not read of their properties. -/
inductive Restyled (e e' : Element) : Prop
  | same : e'.name = e.name → e'.attributes = e.attributes → Restyled e e'
  | shadowed {p : String} : p ∈ styleable → StyleDeclares e p → SameBut p e e' → Restyled e e'
  | overwritten {p style style' : String} : p ∈ styleable → e.attribute? "style" = some style →
      e'.attribute? "style" = some style' → Overwritten p style style' → SameBut "style" e e' →
      Restyled e e'
  | blanks {p : String} : p ∈ styleable →
      (e'.attribute? p).map trimmed = (e.attribute? p).map trimmed → SameBut p e e' → Restyled e e'

/-! ## Declarations -/

theorem declaration?_append {key : List Char} (h : ':' ∉ key) (value : List Char) :
    declaration? (key ++ ':' :: value) =
      if (trim key).isEmpty then none
      else some (String.ofList (lower (trim key)), String.ofList (trim value)) := by
  rw [declaration?, cut?_append h]
  rfl

/-- A part declares a property exactly when it is read as a declaration of it. -/
theorem declares_iff {property : String} (hne : property ≠ "") (part : List Char) :
    Declares property part ↔ ∃ value, declaration? part = some (property, value) := by
  constructor
  · rintro ⟨key, value, rfl, hkey, hname⟩
    have hnonempty : (trim key).isEmpty = false := by
      cases htrim : trim key with
      | nil =>
        rw [htrim] at hname
        exact absurd (String.toList_eq_nil_iff.1 hname.symm) hne
      | cons => rfl
    refine ⟨String.ofList (trim value), ?_⟩
    rw [declaration?_append hkey, hnonempty, hname, String.ofList_toList]
    rfl
  · rintro ⟨value, hdeclaration⟩
    obtain ⟨⟨key, text⟩, hcut, hrest⟩ := Option.bind_eq_some_iff.1 hdeclaration
    refine ⟨key, text, eq_append_of_cut? hcut, not_mem_of_cut? hcut, ?_⟩
    simp only at hrest
    split at hrest
    · cases hrest
    · cases hrest
      rw [String.toList_ofList]

/-- The value that the last of some parts declares for a property. -/
def lastValue? (parts : List (List Char)) (property : String) : Option String :=
  (parts.filterMap declaration?).reverse.lookup property

theorem declared?_eq (e : Element) (property : String) :
    declared? e property =
      (e.attribute? "style").bind fun style => lastValue? (styleParts style) property :=
  rfl

theorem lastValue?_append (before after : List (List Char)) (property : String) :
    lastValue? (before ++ after) property =
      (lastValue? after property).or (lastValue? before property) := by
  rw [lastValue?, List.filterMap_append, List.reverse_append, List.lookup_append]
  rfl

theorem isSome_lastValue? {property : String} (hne : property ≠ "") (parts : List (List Char)) :
    (lastValue? parts property).isSome = true ↔ ∃ part ∈ parts, Declares property part := by
  simp only [lastValue?, List.lookup_isSome_iff, List.mem_reverse, List.mem_filterMap,
    declares_iff hne, beq_iff_eq]
  constructor
  · rintro ⟨⟨_, value⟩, ⟨part, hpart, hdeclaration⟩, rfl⟩
    exact ⟨part, hpart, value, hdeclaration⟩
  · rintro ⟨part, hpart, value, hdeclaration⟩
    exact ⟨(property, value), ⟨part, hpart, hdeclaration⟩, rfl⟩

/-- A declaration tells nothing about other properties. -/
theorem lastValue?_of_ne {property other : String} (hne : other ≠ property) {key : List Char}
    (hkey : ':' ∉ key) (hname : lower (trim key) = property.toList) (value : List Char) :
    lastValue? [key ++ ':' :: value] other = none := by
  have hother : (other == property) = false := beq_eq_false_iff_ne.2 hne
  rw [lastValue?, List.filterMap_cons, declaration?_append hkey, hname, String.ofList_toList]
  split
  · rfl
  · next hdeclaration =>
    split at hdeclaration
    · cases hdeclaration
    · cases hdeclaration
      simp [List.lookup_cons, hother]

theorem lastValue?_of_overwritten {property style style' : String} (hne : property ≠ "")
    (h : Overwritten property style style') (other : String) :
    lastValue? (styleParts style') other = lastValue? (styleParts style) other := by
  obtain ⟨before, key, value, value', after, hstyle, hstyle', hkey, hname, hlater⟩ := h
  rw [hstyle, hstyle', List.append_cons before _ after, List.append_cons before _ after,
    lastValue?_append _ after, lastValue?_append _ after, lastValue?_append before,
    lastValue?_append before]
  -- What stands after the changed declaration is looked at before it.
  by_cases hother : other = property
  · subst hother
    obtain ⟨last, hlast⟩ := Option.isSome_iff_exists.1 ((isSome_lastValue? hne after).2 hlater)
    rw [hlast, Option.some_or, Option.some_or]
  · rw [lastValue?_of_ne hother hkey hname, lastValue?_of_ne hother hkey hname]

theorem isSome_declared? {property : String} (hne : property ≠ "") (e : Element) :
    (declared? e property).isSome = true ↔ StyleDeclares e property := by
  rw [declared?_eq, StyleDeclares]
  cases e.attribute? "style" with
  | none => simp
  | some style => simp [isSome_lastValue? hne]

/-! ## Elements -/

theorem ne_empty_of_styleable {p : String} (h : p ∈ styleable) : p ≠ "" := by
  rintro rfl
  revert h
  decide

theorem ne_style_of_styleable {p : String} (h : p ∈ styleable) : p ≠ "style" := by
  rintro rfl
  revert h
  decide

section

variable {e e' : Element} (h : Restyled e e')

include h

/-- An element is restyled by a change to one attribute. -/
theorem exists_sameBut_of_restyled : ∃ name ∈ "style" :: styleable, SameBut name e e' := by
  cases h with
  | same htag hall => exact ⟨"style", List.mem_cons_self, htag, by rw [hall]⟩
  | shadowed hp _ hbut => exact ⟨_, List.mem_cons_of_mem _ hp, hbut⟩
  | overwritten _ _ _ _ hbut => exact ⟨"style", List.mem_cons_self, hbut⟩
  | blanks hp _ hbut => exact ⟨_, List.mem_cons_of_mem _ hp, hbut⟩

theorem id_of_restyled : e'.attribute? "id" = e.attribute? "id" := by
  obtain ⟨name, hname, hbut⟩ := exists_sameBut_of_restyled h
  refine attribute?_of_sameBut hbut ?_
  rintro rfl
  revert hname
  decide

theorem property?_of_restyled {q : String} (hq : q ∈ styleable) :
    property? e' q = property? e q := by
  have hstyle {p : String} (hp : p ∈ styleable) (hbut : SameBut p e e') :
      declared? e' q = declared? e q := by
    rw [declared?, declared?, attribute?_of_sameBut hbut (ne_style_of_styleable hp).symm]
  cases h with
  | same _ hall => exact property?_of_attributes_eq hall q
  | @shadowed p hp hdeclares hbut =>
    rw [property?, property?, hstyle hp hbut]
    by_cases hqp : q = p
    · subst hqp
      obtain ⟨value, hvalue⟩ := Option.isSome_iff_exists.1
        ((isSome_declared? (ne_empty_of_styleable hp) e).2 hdeclares)
      rw [hvalue, Option.some_or, Option.some_or]
    · rw [attribute?_of_sameBut hbut hqp]
  | overwritten hp hold hnew hover hbut =>
    rw [property?, property?, declared?_eq, declared?_eq, hold, hnew,
      attribute?_of_sameBut hbut (ne_style_of_styleable hq)]
    simp only [Option.bind_some, lastValue?_of_overwritten (ne_empty_of_styleable hp) hover]
  | @blanks p hp htrimmed hbut =>
    rw [property?, property?, hstyle hp hbut]
    by_cases hqp : q = p
    · subst hqp
      cases declared? e q with
      | none => exact htrimmed
      | some => rfl
    · rw [attribute?_of_sameBut hbut hqp]

theorem looksAlike_of_restyled : LooksAlike e e' := by
  obtain ⟨name, hname, hbut⟩ := exists_sameBut_of_restyled h
  exact looksAlike_of_sameBut hbut (List.mem_cons_of_mem _ hname) fun q hq =>
    property?_of_restyled h hq

end

/-! ## Documents -/

/-- What an inline style declares shadows the attribute and the earlier declarations of the same
property: documents that differ in these only give the same drawing and warnings, or the same error.
Without a declaration the attribute decides. -/
theorem read_of_restyled :
    (∀ (mode : Mode) (root root' : Element), InStep Restyled root root' →
      read mode root' = read mode root) ∧
    ∀ e : Element, ∀ p ∈ styleable, ¬ StyleDeclares e p →
      property? e p = (e.attribute? p).map trimmed := by
  constructor
  · intro mode root root' h
    have hsteps : InStep (ReadsAlike fun _ => True) root root' := by
      refine h.readsAlike (fun e e' he => looksAlike_of_restyled he) (fun e e' he => ?_)
        (fun e _ e' he _ => ?_) fun _ _ _ _ => trivial
      · rw [id?, id?, id_of_restyled he]
      · rw [id_of_restyled he]
        exact .refl _ _
    exact read_of_counterparts hsteps mode
  · intro e p hp hnot
    have hnone : declared? e p = none := by
      rw [← Option.not_isSome_iff_eq_none, isSome_declared? (ne_empty_of_styleable hp)]
      exact hnot
    rw [property?, hnone, Option.none_or]

/-- A path with a gradient of one stop, with the given styles of both. -/
def shadedPath (stop path : List Attribute) : Element :=
  ⟨"svg", [], [
    ⟨"linearGradient", [⟨none, "id", "shade"⟩], [⟨"stop", stop, []⟩]⟩,
    ⟨"path", ⟨none, "d", "z"⟩ :: ⟨none, "fill", " url(#shade) "⟩ :: path, []⟩]⟩

/-- Colors that are none, where other ones shadow them. -/
def shadedWrongly : Element :=
  shadedPath [⟨none, "stop-color", "light"⟩, ⟨none, "style", "STOP-COLOR : red; offset: 1"⟩]
    [⟨none, "style", "stroke: dark; Stroke:blue;"⟩]

/-- The same without these colors. -/
def shadedRightly : Element :=
  shadedPath [⟨none, "style", "STOP-COLOR : red; offset: 1"⟩] [⟨none, "style", "stroke:; Stroke:blue;"⟩]

theorem inStep_shaded : InStep Restyled shadedWrongly shadedRightly := by
  have hcolor : Declares "stop-color" "STOP-COLOR : red".toList :=
    ⟨"STOP-COLOR ".toList, " red".toList, rfl, by decide, rfl⟩
  have hover : Overwritten "stroke" "stroke: dark; Stroke:blue;" "stroke:; Stroke:blue;" :=
    ⟨[], "stroke".toList, " dark".toList, [], [" Stroke:blue".toList, []], rfl, rfl, by decide, rfl,
      _, List.mem_cons_self, " Stroke".toList, "blue".toList, rfl, by decide, rfl⟩
  refine .cons (.same rfl rfl) (.cons (.same rfl rfl) (.cons ?_ .nil .nil) (.cons ?_ .nil .nil)) .nil
  · exact .shadowed (by decide) ⟨_, rfl, _, by decide +kernel, hcolor⟩ ⟨rfl, rfl⟩
  · exact .overwritten (by decide) rfl rfl hover ⟨rfl, rfl⟩

/-- A path with a style that declares nothing. -/
def unstyledPath : Element :=
  ⟨"path", [⟨none, "fill", " red "⟩, ⟨none, "style", "fill red"⟩], []⟩

theorem read_of_restyled_shaded :
    InStep Restyled shadedWrongly shadedRightly ∧
      read .strict shadedRightly = read .strict shadedWrongly ∧
      ¬ StyleDeclares unstyledPath "fill" ∧ property? unstyledPath "fill" = some "red" := by
  have hnot : ¬ StyleDeclares unstyledPath "fill" := by
    rw [← isSome_declared? (by decide)]
    decide +kernel
  exact ⟨inStep_shaded, read_of_restyled.1 .strict _ _ inStep_shaded, hnot,
    (read_of_restyled.2 _ "fill" (by decide) hnot).trans rfl⟩

end VectorIcon.Svg
