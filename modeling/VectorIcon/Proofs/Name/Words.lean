import Mathlib.Data.List.SplitBy
import VectorIcon.Name.Basic
import VectorIcon.Proofs.Text.Blank

/-!
# The characters of names

Cleaning a text and putting it into a letter case lose everything but its letters and digits, and none of
these (`filter_clean`, `flatten_words`, `length_pascal`). So whatever text a name is read from, its
categories are words in small letters (`isWord_lower_of_mem_categories`) and the icon's own part is a word of
letters and digits (`isWord_ownPascal`) that begins with the letter or digit that the text says (`find?_own`).
-/

namespace VectorIcon.Name

open Text

variable {c : Char} {s : List Char} {pieces : List (List Char)}

/-! ## Letters and digits -/

/-- A character of folders: a small letter, a digit, or an underscore. -/
def isSmall (c : Char) : Bool :=
  ('a' ≤ c && c ≤ 'z') || isDigit c || c == '_'

theorem isSmall_iff : isSmall c = true ↔
    (97 ≤ c.toNat ∧ c.toNat ≤ 122) ∨ (48 ≤ c.toNat ∧ c.toNat ≤ 57) ∨ c = '_' := by
  have hle {a b : Char} : a ≤ b ↔ a.toNat ≤ b.toNat := Iff.rfl
  simp only [isSmall, isDigit, Bool.or_eq_true, Bool.and_eq_true, decide_eq_true_eq, hle,
    beq_iff_eq, or_assoc]
  rfl

theorem isAlphanumeric_toLower (h : isAlphanumeric c = true) : isAlphanumeric c.toLower = true := by
  rw [isAlphanumeric_iff] at h ⊢
  rw [toNat_toLower]
  split <;> omega

theorem isAlphanumeric_toUpper (h : isAlphanumeric c = true) : isAlphanumeric c.toUpper = true := by
  rw [isAlphanumeric_iff] at h ⊢
  rw [toNat_toUpper]
  split <;> omega

theorem isSmall_toLower (h : isAlphanumeric c = true ∨ c = '_') : isSmall c.toLower = true := by
  rcases h with h | rfl
  · rw [isAlphanumeric_iff] at h
    rw [isSmall_iff, toNat_toLower]
    split <;> omega
  · decide

/-! ## Runs and words -/

theorem flatten_modifyHead (pieces : List (List Char)) (h : pieces ≠ []) :
    (pieces.modifyHead (c :: ·)).flatten = c :: pieces.flatten := by
  cases pieces with
  | nil => exact absurd rfl h
  | cons piece rest => rfl

/-- The runs of a text hold its characters that are no separators. -/
theorem flatten_fields (separator : Char → Bool) (s : List Char) :
    (fields separator s).flatten = s.filter fun c => !separator c := by
  rw [fields, List.flatten_filter_not_isEmpty]
  induction s with
  | nil => rfl
  | cons c rest ih =>
    rw [List.splitOnP_cons_eq_if_modifyHead]
    by_cases h : separator c = true
    · rw [if_pos h, List.flatten_cons, List.nil_append, ih, List.filter_cons_of_neg (by simp [h])]
    · rw [if_neg h, flatten_modifyHead _ (List.splitOnP_ne_nil separator rest), ih,
        List.filter_cons_of_pos (by simp [h])]

theorem flatten_splitOn (separator : Char) (s : List Char) :
    (s.splitOn separator).flatten = s.filter fun c => !(c == separator) := by
  rw [← flatten_fields, fields, List.flatten_filter_not_isEmpty, List.splitOn_eq_splitOnP]

theorem flatten_runs (s : List Char) :
    (fields (fun c => !isAlphanumeric c) s).flatten = s.filter isAlphanumeric := by
  rw [flatten_fields]
  congr 1
  funext c
  exact Bool.not_not _

theorem filter_intercalate (pieces : List (List Char)) :
    (['_'].intercalate pieces).filter isAlphanumeric = pieces.flatten.filter isAlphanumeric := by
  induction pieces with
  | nil => rfl
  | cons piece rest ih =>
    cases rest with
    | nil => rw [List.intercalate_singleton, List.flatten_singleton]
    | cons piece' rest =>
      have hpoint : ['_'].filter isAlphanumeric = [] := by decide
      rw [List.intercalate_cons_cons, List.filter_append, List.filter_append, hpoint, ih,
        List.append_nil, ← List.filter_append]
      rfl

theorem eq_or_mem_of_mem_intercalate (h : c ∈ ['_'].intercalate pieces) :
    c ∈ pieces.flatten ∨ c = '_' := by
  induction pieces with
  | nil => cases h
  | cons piece rest ih =>
    cases rest with
    | nil =>
      rw [List.intercalate_singleton] at h
      exact .inl (by simpa using h)
    | cons piece' rest =>
      rw [List.intercalate_cons_cons, List.mem_append, List.mem_append, List.mem_singleton] at h
      rw [List.flatten_cons, List.mem_append]
      rcases h with (h | h) | h
      · exact .inl (.inl h)
      · exact .inr h
      · exact (ih h).imp_left .inr

/-- Cleaning keeps the letters and digits. -/
theorem filter_clean (s : List Char) : (clean s).filter isAlphanumeric = s.filter isAlphanumeric := by
  rw [clean, filter_intercalate, flatten_runs, List.filter_filter]
  simp only [Bool.and_self]

theorem isAlphanumeric_or_of_mem_clean (h : c ∈ clean s) : isAlphanumeric c = true ∨ c = '_' := by
  refine (eq_or_mem_of_mem_intercalate h).imp_left fun hmem => ?_
  rw [flatten_runs] at hmem
  exact List.of_mem_filter hmem

theorem fields_eq_nil_of_filter (h : s.filter isAlphanumeric = []) :
    fields (fun c => !isAlphanumeric c) s = [] := by
  rw [← flatten_runs, List.flatten_eq_nil_iff] at h
  exact List.eq_nil_iff_forall_not_mem.2 fun piece hpiece => fields_ne_nil hpiece (h piece hpiece)

/-- What is left of a text after cleaning has a letter or a digit. -/
theorem filter_ne_nil_of_clean (h : clean s ≠ []) : s.filter isAlphanumeric ≠ [] := by
  intro hnone
  refine h ?_
  rw [clean, fields_eq_nil_of_filter hnone]
  rfl

theorem clean_ne_nil_iff : clean s ≠ [] ↔ s.filter isAlphanumeric ≠ [] := by
  refine ⟨filter_ne_nil_of_clean, fun h hnil => h ?_⟩
  rw [← filter_clean, hnil]
  rfl

theorem flatten_words (s : List Char) : (words s).flatten = s.filter isAlphanumeric := by
  rw [words, ← flatten_runs]
  induction fields (fun c => !isAlphanumeric c) s with
  | nil => rfl
  | cons run rest ih =>
    rw [List.flatMap_cons, List.flatten_append, List.flatten_splitBy, ih, List.flatten_cons]

theorem isAlphanumeric_of_mem_words {word : List Char} (h : word ∈ words s) (hc : c ∈ word) :
    isAlphanumeric c = true := by
  have hmem : c ∈ (words s).flatten := List.mem_flatten.2 ⟨word, h, hc⟩
  rw [flatten_words] at hmem
  exact List.of_mem_filter hmem

theorem length_capitalize (s : List Char) : (capitalize s).length = s.length := by
  cases s with
  | nil => rfl
  | cons c rest => rw [capitalize, List.length_cons, List.length_cons, lower, List.length_map]

theorem isAlphanumeric_of_mem_capitalize (hs : ∀ c ∈ s, isAlphanumeric c = true)
    (h : c ∈ capitalize s) : isAlphanumeric c = true := by
  cases s with
  | nil => cases h
  | cons first rest =>
    rw [capitalize, List.mem_cons] at h
    rcases h with rfl | h
    · exact isAlphanumeric_toUpper (hs first (List.mem_cons_self ..))
    · obtain ⟨d, hd, rfl⟩ := List.mem_map.1 h
      exact isAlphanumeric_toLower (hs d (List.mem_cons_of_mem _ hd))

theorem isAlphanumeric_of_mem_pascal (h : c ∈ pascal s) : isAlphanumeric c = true := by
  obtain ⟨word, hword, hc⟩ := List.mem_flatMap.1 h
  exact isAlphanumeric_of_mem_capitalize (fun d => isAlphanumeric_of_mem_words hword) hc

theorem ne_nil_of_mem_words {word : List Char} (h : word ∈ words s) : word ≠ [] := by
  obtain ⟨run, -, hword⟩ := List.mem_flatMap.1 h
  exact List.ne_nil_of_mem_splitBy hword

/-- The first word starts with the first letter or digit of the text. -/
theorem head?_pascal (s : List Char) : (pascal s).head? = (s.find? isAlphanumeric).map Char.toUpper := by
  rw [← List.head?_filter, ← flatten_words, pascal]
  cases hwords : words s with
  | nil => rfl
  | cons word rest =>
    have hword : word ≠ [] := ne_nil_of_mem_words (hwords ▸ List.mem_cons_self ..)
    obtain ⟨first, tail, rfl⟩ := List.exists_cons_of_ne_nil hword
    rfl

/-- The words of a text in one case are as long as its letters and digits. -/
theorem length_pascal (s : List Char) : (pascal s).length = (s.filter isAlphanumeric).length := by
  rw [← flatten_words, pascal]
  induction words s with
  | nil => rfl
  | cons word rest ih =>
    rw [List.flatMap_cons, List.length_append, length_capitalize, ih, List.flatten_cons,
      List.length_append]

/-! ## Categories -/

/-- A text has characters, and all of them are of a class. -/
structure IsWord (p : Char → Bool) (text : String) : Prop where
  ne_empty : text.toList ≠ []
  all : ∀ c ∈ text.toList, p c = true

variable {text part : String} {separator : Char}

theorem exists_of_mem_categories (h : part ∈ (ofText text separator).categories) :
    ∃ piece, clean piece ≠ [] ∧ part.toList = clean piece := by
  obtain ⟨cleaned, hcleaned, rfl⟩ := List.mem_map.1 h
  obtain ⟨hmem, hne⟩ := List.mem_filter.1 hcleaned
  obtain ⟨piece, -, rfl⟩ := List.mem_map.1 hmem
  exact ⟨piece, by simpa using hne, String.toList_ofList⟩

/-- A text with letters or digits is a word of these in the case of `ArrowBack`. -/
theorem isWord_pascalCase (h : text.toList.filter isAlphanumeric ≠ []) :
    IsWord isAlphanumeric (pascalCase text) := by
  rw [pascalCase]
  constructor
  · rw [String.toList_ofList, ← List.length_pos_iff, length_pascal, List.length_pos_iff]
    exact h
  · intro c hc
    rw [String.toList_ofList] at hc
    exact isAlphanumeric_of_mem_pascal hc

/-- A text with letters or digits is a word of these in the case of `arrowBack`. -/
theorem isWord_camelCase (h : text.toList.filter isAlphanumeric ≠ []) :
    IsWord isAlphanumeric (camelCase text) := by
  have hpascal := isWord_pascalCase h
  rw [pascalCase] at hpascal
  obtain ⟨hne, hall⟩ := hpascal
  rw [String.toList_ofList] at hne hall
  obtain ⟨first, rest, hwords⟩ := List.exists_cons_of_ne_nil hne
  rw [camelCase, camel, hwords, lowerFirst]
  rw [hwords] at hall
  constructor
  · rw [String.toList_ofList]
    exact List.cons_ne_nil _ _
  · intro c hc
    rw [String.toList_ofList] at hc
    rcases List.mem_cons.1 hc with rfl | hc
    · exact isAlphanumeric_toLower (hall first (List.mem_cons_self ..))
    · exact hall c (List.mem_cons_of_mem _ hc)

/-- A category in small letters is a word of small letters, digits and underscores. -/
theorem isWord_lower_of_mem_categories (h : part ∈ (ofText text separator).categories) :
    IsWord isSmall (String.ofList (lower part.toList)) := by
  obtain ⟨piece, hne, hpart⟩ := exists_of_mem_categories h
  rw [hpart]
  constructor
  · rw [String.toList_ofList, lower]
    exact fun hnil => hne (List.map_eq_nil_iff.1 hnil)
  · intro c hc
    rw [String.toList_ofList, lower] at hc
    obtain ⟨d, hd, rfl⟩ := List.mem_map.1 hc
    exact isSmall_toLower (isAlphanumeric_or_of_mem_clean hd)

/-- Where the icon's own part begins: the first letter or digit of the last category that has one. -/
def firstOfOwn (text : String) (separator : Char) : Option Char :=
  (text.toList.splitOn separator).reverse.findSome? fun piece => piece.find? isAlphanumeric

theorem find?_clean (s : List Char) : (clean s).find? isAlphanumeric = s.find? isAlphanumeric := by
  rw [← List.head?_filter, filter_clean, List.head?_filter]

theorem clean_eq_nil_of_find? (h : s.find? isAlphanumeric = none) : clean s = [] := by
  by_contra hne
  refine filter_ne_nil_of_clean hne ?_
  rw [← List.head?_eq_none_iff, List.head?_filter, h]

theorem find?_last_category (pieces : List (List Char)) :
    (((pieces.map clean).filter fun part => !part.isEmpty).map String.ofList).head?.map
        (fun part => part.toList.find? isAlphanumeric) =
      (pieces.findSome? fun piece => piece.find? isAlphanumeric).map some := by
  induction pieces with
  | nil => rfl
  | cons piece rest ih =>
    rw [List.map_cons, List.findSome?_cons]
    cases hfirst : piece.find? isAlphanumeric with
    | none =>
      have hclean : (!(clean piece).isEmpty) = false := by rw [clean_eq_nil_of_find? hfirst]; rfl
      rw [List.filter_cons_of_neg (by simp [hclean]), ih]
    | some first =>
      have hclean : (!(clean piece).isEmpty) = true := by
        rw [Bool.not_eq_true', List.isEmpty_eq_false_iff]
        intro hnil
        rw [← find?_clean, hnil] at hfirst
        cases hfirst
      rw [List.filter_cons_of_pos (by exact hclean), List.map_cons, List.head?_cons, Option.map_some,
        String.toList_ofList, find?_clean, hfirst]
      rfl

/-- The icon's own part begins with the letter or digit that its text says, or is the default. -/
theorem find?_own (text : String) (separator : Char) :
    (ofText text separator).own.toList.find? isAlphanumeric =
      some ((firstOfOwn text separator).getD 'U') := by
  have hown : (ofText text separator).own =
      (ofText text separator).categories.getLast?.getD Svg.defaultName := rfl
  have hlast := find?_last_category (text.toList.splitOn separator).reverse
  rw [List.map_reverse, List.filter_reverse, List.map_reverse, List.head?_reverse] at hlast
  rw [hown, firstOfOwn]
  change (ofText text separator).categories.getLast?.map _ = _ at hlast
  cases hcategory : (ofText text separator).categories.getLast? with
  | none =>
    rw [hcategory] at hlast
    rw [Option.map_eq_none_iff.1 hlast.symm]
    decide
  | some part =>
    rw [hcategory] at hlast
    obtain ⟨first, hfirst, hpart⟩ := Option.map_eq_some_iff.1 hlast.symm
    rw [Option.getD_some, hfirst]
    exact hpart.symm

/-- The icon's own part has a letter or a digit. -/
theorem filter_own_ne_nil (text : String) (separator : Char) :
    (ofText text separator).own.toList.filter isAlphanumeric ≠ [] := by
  have hown : (ofText text separator).own =
      (ofText text separator).categories.getLast?.getD Svg.defaultName := rfl
  rw [hown]
  cases hlast : (ofText text separator).categories.getLast? with
  | none => decide
  | some part =>
    obtain ⟨piece, hne, hpart⟩ := exists_of_mem_categories (List.mem_of_getLast? hlast)
    rw [Option.getD_some, hpart, filter_clean]
    exact filter_ne_nil_of_clean hne

/-- The icon's own part in the case of `ArrowBack` is a word of letters and digits. -/
theorem isWord_ownPascal (text : String) (separator : Char) :
    IsWord isAlphanumeric (ofText text separator).ownPascal :=
  isWord_pascalCase (filter_own_ne_nil text separator)

end VectorIcon.Name
