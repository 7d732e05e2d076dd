import VectorIcon.Proofs.Name.Snake

/-!
# Words that capitals tell apart

In the form `ArrowBack` of a text nothing but letter case tells where its words begin: a word is found again when
it begins with a letter and the word before it ends in a small letter. Words that are not found again become one
word with the word before. So a second change of case gives what it gives for the text itself only as far as
the words are found again, or have no capital to lose:

1. `ArrowBack` stays as it is, and so does `arrowBack`, when no capital but the first comes after a capital or a
   digit (`pascal_pascal_iff`, `camel_pascal_iff`).
2. `arrow_back` is found again when all words are (`snake_pascal_iff`).
-/

namespace VectorIcon.Name

open Text

variable {c : Char} {s a b run word : List Char} {ws : List (List Char)}

/-! ## Words with a capital -/

/-- A word that ends in a small letter when it is capitalized: its last character is a letter, and not its first
one. -/
def EndsSmall (word : List Char) : Prop :=
  2 ≤ word.length ∧ ∃ c ∈ word.getLast?, isLetter c = true

/-- A word that begins with a capital when it is capitalized. -/
def BeginsWithLetter (word : List Char) : Prop :=
  ∃ c ∈ word.head?, isLetter c = true

/-- The words of a text keep their capitals when they are read as one run: each that begins with a letter, but
for the first, comes after one that ends small. -/
def KeepsCapitals (s : List Char) : Prop :=
  (words s).IsChain fun a b => BeginsWithLetter b → EndsSmall a

/-- The words of a text are told apart by capitals: each, but for the first, begins with a letter and comes after
one that ends small. -/
def KeepsWords (s : List Char) : Prop :=
  (words s).IsChain fun a b => EndsSmall a ∧ BeginsWithLetter b

theorem isUpper_toUpper_iff (c : Char) : c.toUpper.isUpper = true ↔ isLetter c = true := by
  rw [isUpper_iff, isLetter_iff, toNat_toUpper]
  split <;> omega

theorem isLower_toLower_iff (c : Char) : c.toLower.isLower = true ↔ isLetter c = true := by
  rw [isLower_iff, isLetter_iff, toNat_toLower]
  split <;> omega

theorem isLower_toUpper (c : Char) : c.toUpper.isLower = false := by
  rw [← Bool.not_eq_true, isLower_iff, toNat_toUpper]
  split <;> omega

theorem toUpper_toUpper (c : Char) : c.toUpper.toUpper = c.toUpper := by
  rw [← Char.toNat_inj, toNat_toUpper, toNat_toUpper]
  split
  · rw [if_neg (by omega)]
  · rfl

theorem toUpper_of_isUpper (h : c.isUpper = true) : c.toUpper = c := by
  rw [isUpper_iff] at h
  rw [← Char.toNat_inj, toNat_toUpper, if_neg (by omega)]

theorem toLower_eq_self_iff : c.toLower = c ↔ c.isUpper = false := by
  rw [← Char.toNat_inj, toNat_toLower, ← Bool.not_eq_true, isUpper_iff]
  split <;> omega

theorem capitalize_ne_nil (h : word ≠ []) : capitalize word ≠ [] := by
  rw [← List.length_pos_iff, length_capitalize, List.length_pos_iff]
  exact h

theorem lower_capitalize (word : List Char) : lower (capitalize word) = lower word := by
  cases word with
  | nil => rfl
  | cons c rest =>
    have hfirst : c.toUpper.toLower = c.toLower := by
      rw [← Char.toNat_inj, toNat_toLower, toNat_toLower, toNat_toUpper]
      split
      · rw [if_pos (by omega), if_neg (by omega)]
        omega
      · rfl
    show c.toUpper.toLower :: lower (lower rest) = c.toLower :: lower rest
    rw [hfirst, lower_lower]

/-- A word is capitalized when no capital comes after its first character, and no small letter is there. -/
theorem capitalize_eq_self_iff :
    capitalize word = word ↔ (∀ c ∈ word.head?, c.toUpper = c) ∧ ∀ c ∈ word.tail, c.isUpper = false := by
  cases word with
  | nil => simp [capitalize]
  | cons c rest =>
    have hrest : lower rest = rest ↔ ∀ d ∈ rest, d.isUpper = false := by
      have hmap := List.map_inj_left (f := Char.toLower) (g := id) (l := rest)
      rw [List.map_id] at hmap
      exact hmap.trans (forall₂_congr fun d _ => toLower_eq_self_iff)
    simp [capitalize, hrest]

/-! ## Where words meet -/

theorem isUpper_head_capitalize {hne : capitalize word ≠ []} :
    ((capitalize word).head hne).isUpper = true ↔ BeginsWithLetter word := by
  cases word with
  | nil => exact absurd rfl hne
  | cons c rest =>
    show c.toUpper.isUpper = true ↔ ∃ d ∈ some c, isLetter d = true
    rw [isUpper_toUpper_iff]
    exact ⟨fun h => ⟨c, rfl, h⟩, fun ⟨d, hd, h⟩ => Option.some.inj hd ▸ h⟩

theorem isLower_getLast_capitalize {hne : capitalize word ≠ []} :
    ((capitalize word).getLast hne).isLower = true ↔ EndsSmall word := by
  cases word with
  | nil => exact absurd rfl hne
  | cons c rest =>
    cases hrest : rest.getLast? with
    | none =>
      rw [List.getLast?_eq_none_iff] at hrest
      subst hrest
      show c.toUpper.isLower = true ↔ _
      rw [isLower_toUpper]
      exact ⟨fun h => (nomatch h), fun h => absurd h.1 (Nat.not_succ_le_self 1)⟩
    | some d =>
      obtain ⟨init, rfl⟩ := List.getLast?_eq_some_iff.1 hrest
      have hlast : (capitalize (c :: (init ++ [d]))).getLast hne = d.toLower := by
        simp [capitalize, lower]
      rw [hlast, isLower_toLower_iff, EndsSmall, ← List.cons_append, List.getLast?_concat]
      constructor
      · exact fun h => ⟨by simp, d, rfl, h⟩
      · rintro ⟨-, d', hd', h⟩
        exact Option.some.inj hd' ▸ h

/-- What is asked of the second of two neighbours only is asked of all but the first. -/
theorem isChain_iff_forall_tail {α : Type} {q : α → Prop} {l : List α} :
    l.IsChain (fun _ b => q b) ↔ ∀ b ∈ l.tail, q b := by
  cases l with
  | nil => simp
  | cons a rest =>
    induction rest generalizing a with
    | nil => simp
    | cons b rest ih =>
      rw [List.isChain_cons_cons, ih b]
      simp

/-- Inside of a capitalized word no capital comes. -/
theorem isUpper_of_mem_tail_capitalize (h : c ∈ (capitalize word).tail) : c.isUpper = false := by
  cases word with
  | nil => cases h
  | cons first rest =>
    obtain ⟨d, -, rfl⟩ := List.mem_map.1 h
    exact isUpper_toLower d

theorem joins_eq_false_iff {a b : Char} : joins a b = false ↔ a.isLower = true ∧ b.isUpper = true := by
  rw [joins, Bool.not_eq_false', Bool.and_eq_true]

/-- Where two words of a run meet, a capital comes after a small letter. -/
theorem isChain_splitBy_joins (run : List Char) :
    (run.splitBy joins).IsChain fun a b =>
      ∀ x ∈ a.getLast?, ∀ y ∈ b.head?, x.isLower = true ∧ y.isUpper = true := by
  refine (List.isChain_getLast_head_splitBy joins run).imp fun a b h x hx y hy => ?_
  obtain ⟨ha, hb, hjoins⟩ := h
  rw [List.getLast?_eq_some_getLast ha] at hx
  rw [List.head?_eq_some_head hb] at hy
  cases hx
  cases hy
  exact joins_eq_false_iff.1 hjoins

/-- All words of a run begin with a capital or a digit when the first one does. -/
theorem toUpper_head_of_mem_splitBy (hfirst : ∀ c ∈ run.head?, c.toUpper = c)
    (hword : word ∈ run.splitBy joins) (hc : c ∈ word.head?) : c.toUpper = c := by
  have hmeet := isChain_splitBy_joins run
  have hflat := List.flatten_splitBy joins run
  have hne : ∀ word ∈ run.splitBy joins, word ≠ [] := fun _ => List.ne_nil_of_mem_splitBy
  cases hwords : run.splitBy joins with
  | nil => rw [hwords] at hword; cases hword
  | cons first rest =>
    rw [hwords] at hword hmeet hflat hne
    rcases List.mem_cons.1 hword with rfl | hmem
    · refine hfirst c ?_
      rw [← hflat, List.flatten_cons, List.head?_append_of_ne_nil _ (hne _ (List.mem_cons_self ..))]
      exact hc
    · have hcapital : ∀ b ∈ rest, ∀ y ∈ b.head?, y.isUpper = true := by
        refine isChain_iff_forall_tail.1 (hmeet.imp_of_mem_imp fun a b ha _ h y hy => ?_)
        exact (h _ (List.getLast?_eq_some_getLast (hne a ha)) y hy).2
      exact toUpper_of_isUpper (hcapital word hmem c hc)

/-! ## Changing the case again -/

theorem flatMap_capitalize_eq_flatten_iff :
    ws.flatMap capitalize = ws.flatten ↔ ∀ word ∈ ws, capitalize word = word := by
  rw [List.flatMap_def]
  constructor
  · intro h
    have hlengths : (ws.map capitalize).map List.length = ws.map List.length := by
      rw [List.map_map]
      exact List.map_congr_left fun word _ => length_capitalize word
    have hmap := List.map_inj_left (f := capitalize) (g := id) (l := ws)
    rw [List.map_id] at hmap
    exact hmap.1 (List.eq_iff_flatten_eq.2 ⟨h, hlengths⟩)
  · intro h
    rw [List.map_congr_left h, List.map_id']

/-- A run that begins with a capital or a digit keeps its case exactly when each other capital in it comes after
a small letter. -/
theorem pascal_run_eq_iff (hrun : ∀ c ∈ run, isAlphanumeric c = true)
    (hfirst : ∀ c ∈ run.head?, c.toUpper = c) :
    pascal run = run ↔ run.IsChain fun a b => b.isUpper = true → a.isLower = true := by
  have hword : ∀ word ∈ run.splitBy joins, (capitalize word = word ↔
      word.IsChain fun a b => b.isUpper = true → a.isLower = true) := by
    intro word hword
    have hjoins : word.IsChain fun a b => joins a b = true := List.isChain_of_mem_splitBy hword
    rw [capitalize_eq_self_iff, ← isChain_iff_forall_tail,
      and_iff_right fun c => toUpper_head_of_mem_splitBy hfirst hword]
    simp only [List.isChain_iff_getElem] at hjoins ⊢
    refine forall₂_congr fun i hi => ?_
    have hjoin := hjoins i hi
    rw [← Bool.not_eq_false, joins_eq_false_iff] at hjoin
    rw [← Bool.not_eq_true]
    tauto
  have hmeet : (run.splitBy joins).IsChain fun a b =>
      ∀ x ∈ a.getLast?, ∀ y ∈ b.head?, y.isUpper = true → x.isLower = true :=
    (isChain_splitBy_joins run).imp fun a b h x hx y hy _ => (h x hx y hy).1
  calc pascal run = run ↔ (run.splitBy joins).flatMap capitalize = (run.splitBy joins).flatten := by
        rw [pascal, words_run hrun, List.flatten_splitBy]
    _ ↔ ∀ word ∈ run.splitBy joins, capitalize word = word := flatMap_capitalize_eq_flatten_iff
    _ ↔ ∀ word ∈ run.splitBy joins, word.IsChain fun a b => b.isUpper = true → a.isLower = true :=
      forall₂_congr hword
    _ ↔ run.IsChain fun a b => b.isUpper = true → a.isLower = true := by
      conv_rhs => rw [← List.flatten_splitBy joins run]
      rw [List.isChain_flatten (List.nil_notMem_splitBy joins run), and_iff_left hmeet]

/-! ## The form of a text in another case -/

theorem pascal_eq_flatten (s : List Char) : pascal s = ((words s).map capitalize).flatten :=
  List.flatMap_def ..

theorem ne_nil_of_mem_capitalized {capital : List Char} (h : capital ∈ (words s).map capitalize) :
    capital ≠ [] := by
  obtain ⟨word, hword, rfl⟩ := List.mem_map.1 h
  exact capitalize_ne_nil (ne_nil_of_mem_words hword)

theorem nil_notMem_capitalized (s : List Char) : [] ∉ (words s).map capitalize :=
  fun h => ne_nil_of_mem_capitalized h rfl

theorem isChain_of_mem_capitalized {capital : List Char} (h : capital ∈ (words s).map capitalize) :
    capital.IsChain fun _ c => c.isUpper = false := by
  obtain ⟨word, -, rfl⟩ := List.mem_map.1 h
  exact isChain_iff_forall_tail.2 fun c => isUpper_of_mem_tail_capitalize

theorem head?_pascal_pascal (s : List Char) : (pascal (pascal s)).head? = (pascal s).head? := by
  have hrun : (pascal s).filter isAlphanumeric = pascal s :=
    List.filter_eq_self.2 fun c => isAlphanumeric_of_mem_pascal
  rw [head?_pascal, ← List.head?_filter, hrun, head?_pascal, Option.map_map]
  congr 1
  funext c
  exact toUpper_toUpper c

/-- The form `ArrowBack` of a text stays as it is exactly when the words of the text keep their capitals. -/
theorem pascal_pascal_iff (s : List Char) : pascal (pascal s) = pascal s ↔ KeepsCapitals s := by
  have hfirst : ∀ c ∈ (pascal s).head?, c.toUpper = c := by
    intro c hc
    rw [head?_pascal] at hc
    obtain ⟨d, -, rfl⟩ := Option.map_eq_some_iff.1 hc
    exact toUpper_toUpper d
  have hword : ∀ capital ∈ (words s).map capitalize,
      capital.IsChain fun a b => b.isUpper = true → a.isLower = true := by
    intro capital hcapital
    refine (isChain_of_mem_capitalized hcapital).imp fun a b hb hupper => ?_
    rw [hb] at hupper
    cases hupper
  rw [pascal_run_eq_iff (fun c => isAlphanumeric_of_mem_pascal) hfirst, pascal_eq_flatten,
    List.isChain_flatten (nil_notMem_capitalized s), and_iff_right hword, List.isChain_map, KeepsCapitals]
  refine List.IsChain.iff_of_mem_imp fun a b ha hb => ?_
  rw [List.getLast?_eq_some_getLast (capitalize_ne_nil (ne_nil_of_mem_words ha)),
    List.head?_eq_some_head (capitalize_ne_nil (ne_nil_of_mem_words hb))]
  simp only [Option.mem_def, Option.some.injEq, forall_eq', isUpper_head_capitalize,
    isLower_getLast_capitalize]

theorem eq_of_lowerFirst_eq (hhead : a.head? = b.head?) (h : lowerFirst a = lowerFirst b) : a = b := by
  cases a with
  | nil => exact (List.head?_eq_none_iff.1 hhead.symm).symm
  | cons c rest =>
    cases b with
    | nil => cases hhead
    | cons d rest' =>
      rw [Option.some.inj hhead, (List.cons.inj h).2]

/-- The same holds for the form `arrowBack`, which differs in the first character only. -/
theorem camel_pascal_iff (s : List Char) : camel (pascal s) = camel s ↔ KeepsCapitals s := by
  rw [← pascal_pascal_iff, camel, camel]
  exact ⟨eq_of_lowerFirst_eq (head?_pascal_pascal s), fun h => by rw [h]⟩

/-- The words of a text are found again in the form `ArrowBack` exactly when capitals tell them apart. -/
theorem words_pascal_iff (s : List Char) : words (pascal s) = (words s).map capitalize ↔ KeepsWords s := by
  have hword : ∀ capital ∈ (words s).map capitalize, capital.IsChain fun a b => joins a b = true := by
    intro capital hcapital
    refine (isChain_of_mem_capitalized hcapital).imp fun a b hb => ?_
    rw [joins, hb, Bool.and_false]
    rfl
  rw [words_run fun c => isAlphanumeric_of_mem_pascal, List.splitBy_eq_iff,
    and_iff_right (pascal_eq_flatten s), and_iff_right (nil_notMem_capitalized s), and_iff_right hword,
    List.isChain_map, KeepsWords]
  refine List.IsChain.iff_of_mem_imp fun a b ha hb => ?_
  simp only [joins_eq_false_iff, isUpper_head_capitalize, isLower_getLast_capitalize]
  constructor
  · rintro ⟨_, _, h⟩
    exact h
  · exact fun h => ⟨capitalize_ne_nil (ne_nil_of_mem_words ha), capitalize_ne_nil (ne_nil_of_mem_words hb), h⟩

/-- The form `arrow_back` of a text is found again from its form `ArrowBack` exactly when capitals tell its words
apart. -/
theorem snake_pascal_iff (s : List Char) : snake (pascal s) = snake s ↔ KeepsWords s := by
  rw [← words_pascal_iff]
  constructor
  · intro h
    have hlower : (words (pascal s)).map lower = (words s).map lower := by
      rw [← words_snake, h, words_snake]
    have hflat : (words (pascal s)).flatten = ((words s).map capitalize).flatten := by
      rw [flatten_words, ← pascal_eq_flatten, List.filter_eq_self]
      exact fun c => isAlphanumeric_of_mem_pascal
    refine List.eq_iff_flatten_eq.2 ⟨hflat, ?_⟩
    have hlengths := congrArg (List.map List.length) hlower
    have hsame : List.length ∘ lower = List.length := funext fun word => List.length_map ..
    have hsame' : List.length ∘ capitalize = List.length := funext length_capitalize
    rw [List.map_map, List.map_map, hsame] at hlengths
    rw [List.map_map, hsame', hlengths]
  · intro h
    rw [snake, h, List.map_map, snake]
    congr 1
    exact List.map_congr_left fun word _ => lower_capitalize word

end VectorIcon.Name
