import VectorIcon.Proofs.Name.Category

/-!
# The whole of a name and its parts

A name that has a category is its own part below its namespace, as it is written and in the case of
`Navigation.ArrowBack` (`full_eq_under`, `fullPascal_eq_under`). When no category is left of a text, the own part
is the default name; but this is no category, so that the whole is empty (`full_of_not_hasCategory`).
-/

namespace VectorIcon.Name

open Text

variable {text part : String} {parts : List String} {separator : Char}

/-- A part below a namespace, with a point between them if the namespace is not empty. -/
def under (space part : String) : String :=
  if space = "" then part else space ++ "." ++ part

/-- A category is left of a text: it has a letter or a digit that is not its separator. -/
def HasCategory (text : String) (separator : Char) : Prop :=
  ∃ c ∈ text.toList, isAlphanumeric c = true ∧ c ≠ separator

/-! ## Parts with points between them -/

theorem dotted_eq_empty_iff (h : ∀ part ∈ parts, part ≠ "") : dotted parts = "" ↔ parts = [] := by
  cases parts with
  | nil => exact ⟨fun _ => rfl, fun _ => rfl⟩
  | cons part rest =>
    refine ⟨fun hempty => absurd ?_ (h part (List.mem_cons_self ..)), fun hnil => (nomatch hnil)⟩
    cases rest with
    | nil => exact String.intercalate_singleton.symm.trans hempty
    | cons part' rest =>
      rw [dotted, String.intercalate_cons_cons, String.append_eq_empty_iff, String.append_eq_empty_iff] at hempty
      exact hempty.1.1

theorem dotted_concat (h : ∀ part ∈ parts, part ≠ "") (part : String) :
    dotted (parts ++ [part]) = under (dotted parts) part := by
  by_cases hnil : parts = []
  · subst hnil
    exact String.intercalate_singleton
  · rw [under, if_neg (mt (dotted_eq_empty_iff h).1 hnil), dotted,
      String.intercalate_append_of_ne_nil hnil (List.cons_ne_nil _ _), String.intercalate_singleton]
    rfl

theorem exists_under_eq_append (space part : String) : ∃ before, under space part = before ++ part := by
  unfold under
  split
  · exact ⟨"", String.empty_append.symm⟩
  · exact ⟨space ++ ".", rfl⟩

/-! ## Names with a category -/

theorem categories_ne_nil_iff : (ofText text separator).categories ≠ [] ↔ HasCategory text separator := by
  have hcategories : (ofText text separator).categories =
      (((text.toList.splitOn separator).map clean).filter fun part => !part.isEmpty).map String.ofList := rfl
  have hpiece : (∃ piece ∈ text.toList.splitOn separator, clean piece ≠ []) ↔
      ∃ c ∈ (text.toList.splitOn separator).flatten, isAlphanumeric c = true := by
    simp only [clean_ne_nil_iff, ne_eq, List.filter_eq_nil_iff, not_forall, not_not, List.mem_flatten]
    constructor
    · rintro ⟨piece, hmem, c, hc, h⟩
      exact ⟨c, ⟨piece, hmem, hc⟩, h⟩
    · rintro ⟨c, ⟨piece, hmem, hc⟩, h⟩
      exact ⟨piece, hmem, c, hc, h⟩
  rw [flatten_splitOn] at hpiece
  rw [hcategories, Ne, List.map_eq_nil_iff, List.filter_eq_nil_iff]
  simpa [HasCategory, and_assoc, and_comm, and_left_comm] using hpiece

theorem categories_eq_concat (h : HasCategory text separator) :
    (ofText text separator).categories =
      (ofText text separator).namespaceParts ++ [(ofText text separator).own] := by
  have hne := categories_ne_nil_iff.2 h
  have hown : (ofText text separator).own = (ofText text separator).categories.getLast hne := by
    show (ofText text separator).categories.getLast?.getD Svg.defaultName = _
    rw [List.getLast?_eq_some_getLast hne, Option.getD_some]
  rw [hown, namespaceParts, List.dropLast_concat_getLast]

theorem ne_empty_of_mem_namespaceParts (h : part ∈ (ofText text separator).namespaceParts) :
    part ≠ "" ∧ pascalCase part ≠ "" := by
  have hclean := isClean_of_mem_categories (List.dropLast_subset _ h)
  have hpascal := (isWord_pascalCase hclean.filter_ne_nil).ne_empty
  exact ⟨fun heq => hclean.ne_nil (String.toList_eq_nil_iff.2 heq),
    fun heq => hpascal (String.toList_eq_nil_iff.2 heq)⟩

/-- A name that has a category is its own part below its namespace. -/
theorem full_eq_under (h : HasCategory text separator) :
    (ofText text separator).full =
      under (ofText text separator).namespaceText (ofText text separator).own := by
  rw [full, categories_eq_concat h, dotted_concat fun part hpart => (ne_empty_of_mem_namespaceParts hpart).1]
  rfl

/-- It is so in the case of `Navigation.ArrowBack`, too. -/
theorem fullPascal_eq_under (h : HasCategory text separator) :
    (ofText text separator).fullPascal =
      under (ofText text separator).namespacePascal (ofText text separator).ownPascal := by
  have hne : ∀ word ∈ (ofText text separator).namespaceParts.map pascalCase, word ≠ "" := by
    intro word hword
    obtain ⟨part, hpart, rfl⟩ := List.mem_map.1 hword
    exact (ne_empty_of_mem_namespaceParts hpart).2
  rw [fullPascal, dottedPascal, categories_eq_concat h, List.map_append, List.map_singleton, dotted_concat hne]
  rfl

/-! ## Names without a category -/

/-- The default name stands in for the own part, and nothing for the rest. -/
theorem full_of_not_hasCategory (h : ¬ HasCategory text separator) :
    (ofText text separator).own = Svg.defaultName ∧ (ofText text separator).full = "" ∧
      (ofText text separator).fullPascal = "" ∧ (ofText text separator).namespaceText = "" ∧
      (ofText text separator).namespacePascal = "" := by
  have hnil : (ofText text separator).categories = [] := not_not.1 (mt categories_ne_nil_iff.1 h)
  have hown : (ofText text separator).own =
      (ofText text separator).categories.getLast?.getD Svg.defaultName := rfl
  rw [hown, full, fullPascal, namespaceText, namespacePascal, namespaceParts, hnil]
  exact ⟨rfl, rfl, rfl, rfl, rfl⟩

theorem full_eq_under_iff (text : String) (separator : Char) :
    (ofText text separator).full =
      under (ofText text separator).namespaceText (ofText text separator).own ↔
        HasCategory text separator := by
  refine ⟨fun heq => ?_, full_eq_under⟩
  by_contra h
  obtain ⟨hown, hfull, -, hspace, -⟩ := full_of_not_hasCategory h
  rw [hfull, hspace, hown] at heq
  exact absurd heq (by decide)

/-- The whole ends in the own part, in the case of `Navigation.ArrowBack`, exactly when there is a category. -/
theorem exists_fullPascal_eq_append_iff (text : String) (separator : Char) :
    (∃ before, (ofText text separator).fullPascal = before ++ (ofText text separator).ownPascal) ↔
      HasCategory text separator := by
  constructor
  · rintro ⟨before, heq⟩
    by_contra h
    obtain ⟨-, -, hfull, -, -⟩ := full_of_not_hasCategory h
    rw [hfull, eq_comm, String.append_eq_empty_iff] at heq
    exact (isWord_ownPascal text separator).ne_empty (String.toList_eq_nil_iff.2 heq.2)
  · intro h
    rw [fullPascal_eq_under h]
    exact exists_under_eq_append ..

theorem fullPascal_eq_under_iff (text : String) (separator : Char) :
    (ofText text separator).fullPascal =
      under (ofText text separator).namespacePascal (ofText text separator).ownPascal ↔
        HasCategory text separator := by
  refine ⟨fun heq => (exists_fullPascal_eq_append_iff text separator).1 ?_, fullPascal_eq_under⟩
  rw [heq]
  exact exists_under_eq_append ..

end VectorIcon.Name
