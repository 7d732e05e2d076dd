import VectorIcon.Proofs.Name.Category

/-!
# Names in small letters

Words in small letters with underscores between them are read back as these words (`words_snake`): no word has an
underscore in it, and without capitals none is cut. A word is capitalized alike whether its letters were small
or not. So the form `home_icon` of a text stands for the text in all cases (`snake_normal_form`).
-/

namespace VectorIcon.Name

open Text

variable {c : Char} {s run word : List Char} {runs : List (List Char)}

/-! ## Letter case -/

theorem isUpper_iff : c.isUpper = true ↔ 65 ≤ c.toNat ∧ c.toNat ≤ 90 :=
  decide_eq_true_iff

theorem isLower_iff : c.isLower = true ↔ 97 ≤ c.toNat ∧ c.toNat ≤ 122 :=
  Bool.and_eq_true_iff.trans (and_congr decide_eq_true_iff decide_eq_true_iff)

theorem isUpper_toLower (c : Char) : c.toLower.isUpper = false := by
  rw [← Bool.not_eq_true, isUpper_iff, toNat_toLower]
  split <;> omega

theorem toUpper_toLower (c : Char) : c.toLower.toUpper = c.toUpper := by
  rw [← Char.toNat_inj, toNat_toUpper, toNat_toUpper, toNat_toLower]
  split
  · rw [if_pos (by omega), if_neg (by omega)]
    omega
  · rfl

theorem capitalize_lower (s : List Char) : capitalize (lower s) = capitalize s := by
  cases s with
  | nil => rfl
  | cons c rest =>
    show c.toLower.toUpper :: lower (lower rest) = c.toUpper :: lower rest
    rw [toUpper_toLower, lower_lower]

/-! ## Words that are joined -/

theorem isAlphanumeric_of_mem_lower (h : ∀ c ∈ s, isAlphanumeric c = true) :
    ∀ c ∈ lower s, isAlphanumeric c = true := by
  intro c hc
  obtain ⟨d, hd, rfl⟩ := List.mem_map.1 hc
  exact isAlphanumeric_toLower (h d hd)

/-- The words of a run of letters and digits begin where capitals follow small letters. -/
theorem words_run (h : ∀ c ∈ run, isAlphanumeric c = true) : words run = run.splitBy joins := by
  by_cases hne : run = []
  · rw [hne, words_nil, List.splitBy_nil]
  · rw [words, fields_run hne (isSeparator_run h), List.flatMap_singleton]

theorem words_append_cons (h : isAlphanumeric c = false) (a b : List Char) :
    words (a ++ c :: b) = words a ++ words b := by
  rw [words, fields_append_cons (by rw [h]; rfl), List.flatMap_append]
  rfl

theorem words_intercalate (h : ∀ run ∈ runs, ∀ c ∈ run, isAlphanumeric c = true) :
    words (['_'].intercalate runs) = runs.flatMap fun run => run.splitBy joins := by
  induction runs with
  | nil => exact words_nil
  | cons run rest ih =>
    have hrun := words_run (h run (List.mem_cons_self ..))
    cases rest with
    | nil => rw [List.intercalate_singleton, List.flatMap_singleton, hrun]
    | cons run' rest =>
      have hrest := ih fun run'' hmem => h run'' (List.mem_cons_of_mem _ hmem)
      rw [List.intercalate_cons_cons, List.append_assoc, List.singleton_append,
        words_append_cons (by decide), hrun, hrest, List.flatMap_cons (x := run)]

/-- A word in small letters is not cut. -/
theorem splitBy_lower (hne : word ≠ []) : (lower word).splitBy joins = [lower word] := by
  refine List.splitBy_of_isChain (fun hnil => hne (List.map_eq_nil_iff.1 hnil)) ?_
  refine (List.isChain_map _).2 (List.pairwise_of_forall fun c d => ?_).isChain
  rw [joins, isUpper_toLower, Bool.and_false]
  rfl

/-- Words in small letters with underscores between them are read back. -/
theorem words_snake (s : List Char) : words (snake s) = (words s).map lower := by
  have hall : ∀ run ∈ (words s).map lower, ∀ c ∈ run, isAlphanumeric c = true := by
    intro run hrun
    obtain ⟨word, hword, rfl⟩ := List.mem_map.1 hrun
    exact isAlphanumeric_of_mem_lower fun c hc => isAlphanumeric_of_mem_words hword hc
  calc words (snake s) = ((words s).map lower).flatMap fun run => run.splitBy joins := words_intercalate hall
    _ = (words s).flatMap fun word => (lower word).splitBy joins := List.flatMap_map ..
    _ = (words s).flatMap fun word => [lower word] :=
      List.flatMap_congr fun word hword => splitBy_lower (ne_nil_of_mem_words hword)
    _ = (words s).map lower := List.map_eq_flatMap.symm

/-! ## The normal form -/

theorem snake_snake (s : List Char) : snake (snake s) = snake s := by
  rw [snake, words_snake, List.map_map, snake]
  congr 1
  exact List.map_congr_left fun word _ => lower_lower word

theorem pascal_snake (s : List Char) : pascal (snake s) = pascal s := by
  rw [pascal, words_snake, List.flatMap_map]
  exact List.flatMap_congr fun word _ => capitalize_lower word

theorem camel_snake (s : List Char) : camel (snake s) = camel s := by
  rw [camel, pascal_snake, camel]

theorem words_eq_nil_iff : words s = [] ↔ ∀ c ∈ s, isAlphanumeric c = false := by
  constructor
  · intro h c hc
    have hnone := flatten_words s
    rw [h, List.flatten_nil] at hnone
    rw [← Bool.not_eq_true]
    exact List.filter_eq_nil_iff.1 hnone.symm c hc
  · intro h
    have hnone : s.filter isAlphanumeric = [] :=
      List.filter_eq_nil_iff.2 fun c hc => by rw [h c hc]; exact Bool.false_ne_true
    rw [words, fields_eq_nil_of_filter hnone]
    rfl

theorem snake_eq_nil_iff : snake s = [] ↔ ∀ c ∈ s, isAlphanumeric c = false := by
  rw [← words_eq_nil_iff]
  constructor
  · intro h
    have hwords := words_snake s
    rw [h, words_nil] at hwords
    exact List.map_eq_nil_iff.1 hwords.symm
  · intro h
    rw [snake, h]
    rfl

/-- The form `home_icon` of a text stands for the text: it has the same forms in all cases, itself among them.
It is empty exactly for a text without letters and digits. -/
theorem snake_normal_form (text : String) :
    snakeCase (snakeCase text) = snakeCase text ∧
      pascalCase (snakeCase text) = pascalCase text ∧
      camelCase (snakeCase text) = camelCase text ∧
      (snakeCase text = "" ↔ ∀ c ∈ text.toList, isAlphanumeric c = false) := by
  have hchars : (snakeCase text).toList = snake text.toList := String.toList_ofList
  refine ⟨?_, ?_, ?_, ?_⟩
  · rw [snakeCase, hchars, snake_snake, snakeCase]
  · rw [pascalCase, hchars, pascal_snake, pascalCase]
  · rw [camelCase, hchars, camel_snake, camelCase]
  · rw [← String.toList_eq_nil_iff, hchars]
    exact snake_eq_nil_iff

end VectorIcon.Name
