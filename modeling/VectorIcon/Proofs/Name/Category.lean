import VectorIcon.Proofs.Name.Words
import VectorIcon.Proofs.Text.Cutting

/-!
# Categories and dotted paths

A category is a word of letters and digits with single underscores between them (`isClean_of_mem_categories`),
and cleaning leaves such a word as it is (`clean_of_isClean`). It has no point, so points between categories set
apart just these: a dotted path is read back as the same categories, and its forms in other cases have one
segment for each category that they cover (`canonical_categories`).
-/

namespace VectorIcon.Name

open Text

variable {s a b run : List Char} {runs : List (List Char)} {text part : String} {parts : List String}
  {separator : Char}

/-! ## Cleaned words -/

/-- A word of letters and digits, with single underscores between some of them. -/
structure IsClean (s : List Char) : Prop where
  ne_nil : s ≠ []
  all : ∀ c ∈ s, isAlphanumeric c = true ∨ c = '_'
  head : s.head? ≠ some '_'
  last : s.getLast? ≠ some '_'
  single : s.IsChain fun a b => a ≠ '_' ∨ b ≠ '_'

theorem ne_underscore_of_isAlphanumeric {c : Char} (h : isAlphanumeric c = true) : c ≠ '_' := by
  rintro rfl
  exact absurd h (by decide)

theorem isClean_run (hne : run ≠ []) (h : ∀ c ∈ run, isAlphanumeric c = true) : IsClean run where
  ne_nil := hne
  all c hc := .inl (h c hc)
  head heq := ne_underscore_of_isAlphanumeric (h _ (List.mem_of_head? heq)) rfl
  last heq := ne_underscore_of_isAlphanumeric (h _ (List.mem_of_getLast? heq)) rfl
  single := List.Pairwise.isChain <| List.pairwise_iff_forall_sublist.2 fun {c _} hsub =>
    .inl (ne_underscore_of_isAlphanumeric (h c (hsub.subset (List.mem_cons_self ..))))

/-- Two cleaned words with an underscore between them are one. -/
theorem IsClean.append (ha : IsClean a) (hb : IsClean b) : IsClean (a ++ '_' :: b) where
  ne_nil := List.append_ne_nil_of_right_ne_nil _ (List.cons_ne_nil _ _)
  all c hc := by
    rcases List.mem_append.1 hc with hc | hc
    · exact ha.all c hc
    · rcases List.mem_cons.1 hc with rfl | hc
      · exact .inr rfl
      · exact hb.all c hc
  head := by
    obtain ⟨first, rest, rfl⟩ := List.exists_cons_of_ne_nil ha.ne_nil
    exact ha.head
  last := by
    rw [List.getLast?_append_of_ne_nil _ (List.cons_ne_nil _ _), List.getLast?_cons_of_ne_nil hb.ne_nil]
    exact hb.last
  single := by
    refine ha.single.append (List.isChain_cons.2 ⟨fun d hd => .inr ?_, hb.single⟩) fun c hc d _ => .inl ?_
    · rintro rfl
      exact hb.head hd
    · rintro rfl
      exact ha.last hc

/-- What follows an underscore of a cleaned word is one. -/
theorem IsClean.of_append (h : IsClean (a ++ '_' :: b)) : IsClean b := by
  have hchain := List.isChain_cons.1 (List.isChain_append.1 h.single).2.1
  have hb : b ≠ [] := by
    rintro rfl
    exact h.last (by simp)
  have hlast : (a ++ '_' :: b).getLast? = b.getLast? := by
    rw [List.getLast?_append_of_ne_nil _ (List.cons_ne_nil _ _), List.getLast?_cons_of_ne_nil hb]
  exact {
    ne_nil := hb
    all := fun c hc => h.all c (List.mem_append_right _ (List.mem_cons_of_mem _ hc))
    head := fun heq => (hchain.1 _ heq).elim (· rfl) (· rfl)
    last := fun heq => h.last (hlast.trans heq)
    single := hchain.2 }

theorem isClean_intercalate (hne : runs ≠ [])
    (h : ∀ run ∈ runs, run ≠ [] ∧ ∀ c ∈ run, isAlphanumeric c = true) :
    IsClean (['_'].intercalate runs) := by
  induction runs with
  | nil => exact absurd rfl hne
  | cons run rest ih =>
    obtain ⟨hrun, hall⟩ := h run (List.mem_cons_self ..)
    cases rest with
    | nil =>
      rw [List.intercalate_singleton]
      exact isClean_run hrun hall
    | cons run' rest =>
      rw [List.intercalate_cons_cons, List.append_assoc]
      exact (isClean_run hrun hall).append
        (ih (List.cons_ne_nil _ _) fun run'' hmem => h run'' (List.mem_cons_of_mem _ hmem))

theorem isClean_clean (h : clean s ≠ []) : IsClean (clean s) := by
  refine isClean_intercalate (fun hnil => h (by rw [clean, hnil]; rfl)) fun run hrun =>
    ⟨fields_ne_nil hrun, fun c hc => ?_⟩
  have hmem : c ∈ (fields (fun c => !isAlphanumeric c) s).flatten := List.mem_flatten.2 ⟨run, hrun, hc⟩
  rw [flatten_runs] at hmem
  exact List.of_mem_filter hmem

/-! ## Cleaning again -/

theorem isSeparator_run (h : ∀ c ∈ run, isAlphanumeric c = true) :
    ∀ c ∈ run, (!isAlphanumeric c) = false := by
  intro c hc
  rw [h c hc]
  rfl

theorem clean_run (hne : run ≠ []) (h : ∀ c ∈ run, isAlphanumeric c = true) : clean run = run := by
  rw [clean, fields_run hne (isSeparator_run h), List.intercalate_singleton]

theorem clean_run_append (hne : run ≠ []) (h : ∀ c ∈ run, isAlphanumeric c = true) (hs : clean s ≠ []) :
    clean (run ++ '_' :: s) = run ++ '_' :: clean s := by
  have hfields : fields (fun c => !isAlphanumeric c) s ≠ [] := by
    intro hnil
    exact hs (by rw [clean, hnil]; rfl)
  rw [clean, fields_append_cons (by decide), fields_run hne (isSeparator_run h), List.singleton_append,
    List.intercalate_cons_of_ne_nil hfields, List.append_assoc]
  rfl

/-- Cleaning leaves a cleaned word as it is: its runs are what stands between its underscores. -/
theorem clean_of_isClean (h : IsClean s) : clean s = s := by
  induction hlength : s.length using Nat.strongRecOn generalizing s with
  | ind n ih =>
    have hrun : ∀ c ∈ s.takeWhile isAlphanumeric, isAlphanumeric c = true :=
      fun c hc => List.all_eq_true.1 List.all_takeWhile c hc
    have hs : s.takeWhile isAlphanumeric ++ s.dropWhile isAlphanumeric = s :=
      List.takeWhile_append_dropWhile
    generalize s.takeWhile isAlphanumeric = run at hs hrun
    cases hrest : s.dropWhile isAlphanumeric with
    | nil =>
      rw [hrest, List.append_nil] at hs
      subst hs
      exact clean_run h.ne_nil hrun
    | cons c rest =>
      have hc : isAlphanumeric c = false := by
        have hfirst := List.head?_dropWhile_not isAlphanumeric s
        rwa [hrest] at hfirst
      rw [hrest] at hs
      subst hs
      obtain rfl : c = '_' := (h.all c (by simp)).resolve_left (by simp [hc])
      have hne : run ≠ [] := by
        rintro rfl
        exact h.head rfl
      have hagain : clean rest = rest :=
        ih rest.length (by simp at hlength; omega) h.of_append rfl
      rw [clean_run_append hne hrun (hagain.symm ▸ h.of_append.ne_nil), hagain]

/-! ## Categories -/

theorem isClean_of_mem_categories (h : part ∈ (ofText text separator).categories) :
    IsClean part.toList := by
  obtain ⟨piece, hne, hpart⟩ := exists_of_mem_categories h
  rw [hpart]
  exact isClean_clean hne

theorem point_not_mem_of_isClean (h : IsClean s) : '.' ∉ s := fun hmem =>
  absurd (h.all '.' hmem) (by decide)

/-- A cleaned word is read as a single category, itself. -/
theorem categories_of_isClean (h : IsClean part.toList) : (ofText part).categories = [part] := by
  have hsplit : part.toList.splitOn '.' = [part.toList] :=
    List.splitOn_eq_singleton (point_not_mem_of_isClean h)
  have hne : (!part.toList.isEmpty) = true := by
    rw [Bool.not_eq_true', List.isEmpty_eq_false_iff]
    exact h.ne_nil
  simp only [ofText, hsplit, List.map_singleton, clean_of_isClean h, List.filter_singleton, hne, cond_true,
    String.ofList_toList]

theorem splitOn_intercalate_flatMap {pieces : List (List Char)} (h : pieces ≠ []) :
    (['.'].intercalate pieces).splitOn '.' = pieces.flatMap (·.splitOn '.') := by
  induction pieces with
  | nil => exact absurd rfl h
  | cons piece rest ih =>
    cases rest with
    | nil => rw [List.intercalate_singleton, List.flatMap_cons, List.flatMap_nil, List.append_nil]
    | cons piece' rest =>
      rw [List.intercalate_cons_cons, List.append_assoc, List.singleton_append,
        List.splitOn_append_cons_self, ih (List.cons_ne_nil _ _), List.flatMap_cons (x := piece)]

theorem toList_dotted (parts : List String) :
    (dotted parts).toList = ['.'].intercalate (parts.map String.toList) :=
  String.toList_intercalate

/-- A dotted path has the categories of its parts. -/
theorem categories_dotted (parts : List String) :
    (ofText (dotted parts)).categories = parts.flatMap fun part => (ofText part).categories := by
  cases parts with
  | nil => rfl
  | cons part rest =>
    have hne : (part :: rest).map String.toList ≠ [] := List.cons_ne_nil _ _
    have hsplit := splitOn_intercalate_flatMap hne
    simp only [ofText, toList_dotted, hsplit, List.flatMap_map, List.map_flatMap, List.filter_flatMap]

/-- Cleaned words with points between them are read back. -/
theorem categories_dotted_of_isClean (h : ∀ part ∈ parts, IsClean part.toList) :
    (ofText (dotted parts)).categories = parts := by
  rw [categories_dotted, List.flatMap_congr fun part hpart => categories_of_isClean (h part hpart),
    List.flatMap_singleton']

/-! ## Segments -/

/-- The segments of a text between its points. -/
def segments (text : String) : List String :=
  (text.toList.splitOn '.').map String.ofList

/-- A text has one segment for each of some parts, and none of them is empty. -/
structure Covers (text : String) (parts : List String) : Prop where
  length_segments : (segments text).length = parts.length
  ne_empty : ∀ segment ∈ segments text, segment ≠ ""

theorem segments_dotted (hne : parts ≠ []) (h : ∀ part ∈ parts, '.' ∉ part.toList) :
    segments (dotted parts) = parts := by
  have hsplit : (['.'].intercalate (parts.map String.toList)).splitOn '.' = parts.map String.toList := by
    refine List.splitOn_intercalate '.' (fun s hs => ?_) (by simpa using hne)
    obtain ⟨part, hpart, rfl⟩ := List.mem_map.1 hs
    exact h part hpart
  rw [segments, toList_dotted, hsplit, List.map_map]
  exact List.map_id'' (fun part => String.ofList_toList) parts

theorem segments_dotted_of_isClean (hne : parts ≠ []) (h : ∀ part ∈ parts, IsClean part.toList) :
    segments (dotted parts) = parts :=
  segments_dotted hne fun part hpart => point_not_mem_of_isClean (h part hpart)

theorem covers_dotted {p : Char → Bool} {words : List String} (hlength : words.length = parts.length)
    (hne : parts ≠ []) (hp : p '.' = false) (h : ∀ word ∈ words, IsWord p word) :
    Covers (dotted words) parts := by
  have hwords : words ≠ [] := by
    rw [← List.length_pos_iff, hlength, List.length_pos_iff]
    exact hne
  have hsegments : segments (dotted words) = words :=
    segments_dotted hwords fun word hword hmem => by
      have hpoint := (h word hword).all '.' hmem
      rw [hp] at hpoint
      cases hpoint
  rw [← hsegments] at hlength h
  exact ⟨hlength, fun word hword heq => (h word hword).ne_empty (by rw [heq]; rfl)⟩

theorem IsClean.isWord (h : IsClean part.toList) : IsWord (fun c => isAlphanumeric c || c == '_') part where
  ne_empty := h.ne_nil
  all c hc := by simpa using h.all c hc

/-- A cleaned word begins with a letter or a digit. -/
theorem IsClean.filter_ne_nil (h : IsClean s) : s.filter isAlphanumeric ≠ [] := by
  obtain ⟨first, rest, rfl⟩ := List.exists_cons_of_ne_nil h.ne_nil
  have hfirst : isAlphanumeric first = true :=
    (h.all first (List.mem_cons_self ..)).resolve_right fun heq => h.head (by rw [heq]; rfl)
  rw [List.filter_cons_of_pos hfirst]
  exact List.cons_ne_nil _ _

/-- The forms of a dotted path in the different cases have one segment for each of its parts. -/
theorem covers_of_isClean (hne : parts ≠ []) (h : ∀ part ∈ parts, IsClean part.toList) :
    Covers (dotted parts) parts ∧ Covers (dottedPascal parts) parts ∧ Covers (dottedCamel parts) parts := by
  have hpascal : ∀ word ∈ parts.map pascalCase, IsWord isAlphanumeric word := by
    intro word hword
    obtain ⟨part, hpart, rfl⟩ := List.mem_map.1 hword
    exact isWord_pascalCase (h part hpart).filter_ne_nil
  refine ⟨covers_dotted rfl hne (by decide) fun part hpart => (h part hpart).isWord,
    covers_dotted (List.length_map _) hne (by decide) hpascal, ?_⟩
  obtain ⟨first, rest, rfl⟩ := List.exists_cons_of_ne_nil hne
  refine covers_dotted (by simp) hne (p := isAlphanumeric) (by decide) fun word hword => ?_
  rcases List.mem_cons.1 hword with rfl | hword
  · exact isWord_camelCase (h first (List.mem_cons_self ..)).filter_ne_nil
  · exact hpascal word (List.mem_cons_of_mem _ hword)

/-! ## Names -/

/-- The categories of a name are cleaned words, its dotted path is read back as the same categories, and all
forms of this path and of the namespace have one segment for each category that they cover. -/
theorem canonical_categories (text : String) (separator : Char) :
    let n := ofText text separator
    (∀ part ∈ n.categories, IsClean part.toList) ∧
    (ofText n.full).categories = n.categories ∧
    (n.categories ≠ [] → segments n.full = n.categories ∧ Covers n.full n.categories ∧
      Covers n.fullPascal n.categories ∧ Covers n.fullCamel n.categories) ∧
    (n.namespaceParts ≠ [] → segments n.namespaceText = n.namespaceParts ∧
      Covers n.namespaceText n.namespaceParts ∧ Covers n.namespacePascal n.namespaceParts ∧
      Covers n.namespaceCamel n.namespaceParts) := by
  intro n
  have hclean : ∀ part ∈ n.categories, IsClean part.toList := fun part => isClean_of_mem_categories
  have hnamespace : ∀ part ∈ n.namespaceParts, IsClean part.toList :=
    fun part hpart => hclean part (List.dropLast_subset _ hpart)
  exact ⟨hclean, categories_dotted_of_isClean hclean,
    fun hne => ⟨segments_dotted_of_isClean hne hclean, covers_of_isClean hne hclean⟩,
    fun hne => ⟨segments_dotted_of_isClean hne hnamespace, covers_of_isClean hne hnamespace⟩⟩

/-- Categories set apart by slashes, with points, hyphens and blanks in them. -/
theorem canonical_categories_slashes :
    let n := ofText "ui..arrow--back!/Home 2x" '/'
    IsClean "ui_arrow_back".toList ∧ (ofText "ui_arrow_back.Home_2x").categories = n.categories ∧
      Covers "ui_arrow_back.Home_2x" n.categories ∧ Covers "UiArrowBack.Home2x" n.categories ∧
      Covers "uiArrowBack" n.namespaceParts := by
  have hcategories : (ofText "ui..arrow--back!/Home 2x" '/').categories = ["ui_arrow_back", "Home_2x"] := by
    decide +kernel
  have hnamespace : (ofText "ui..arrow--back!/Home 2x" '/').namespaceParts = ["ui_arrow_back"] := by
    decide +kernel
  have hfull : (ofText "ui..arrow--back!/Home 2x" '/').full = "ui_arrow_back.Home_2x" := by decide +kernel
  have hpascal : (ofText "ui..arrow--back!/Home 2x" '/').fullPascal = "UiArrowBack.Home2x" := by
    decide +kernel
  have hcamel : (ofText "ui..arrow--back!/Home 2x" '/').namespaceCamel = "uiArrowBack" := by
    decide +kernel
  obtain ⟨hclean, hagain, hcovers, hbelow⟩ := canonical_categories "ui..arrow--back!/Home 2x" '/'
  obtain ⟨-, hpath, hpaths, -⟩ := hcovers (by rw [hcategories]; exact List.cons_ne_nil _ _)
  obtain ⟨-, -, -, hfolders⟩ := hbelow (by rw [hnamespace]; exact List.cons_ne_nil _ _)
  rw [hfull] at hagain hpath
  rw [hpascal] at hpaths
  rw [hcamel] at hfolders
  exact ⟨hclean _ (by rw [hcategories]; exact List.mem_cons_self ..), hagain, hpath, hpaths, hfolders⟩

end VectorIcon.Name
