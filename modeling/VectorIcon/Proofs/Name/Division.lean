import VectorIcon.Proofs.Name.Category

/-!
# Names that points divide

A point between letters or digits divides a name. A name that is not divided has one category, its cleaned
text, and a name that is divided has more (`length_pieces_eq_one_iff`), so that some names have no more
categories than they are only when none of them is divided (`isUndivided_of_length_le`). Underscores in the
place of other characters that are no letters or digits change nothing (`pieces_map`).
-/

namespace VectorIcon.Name

open Text

variable {s a b : List Char} {name stem : String} {names : List String}

/-- The cleaned pieces of a text between its points, as far as something is left of them. -/
def pieces (s : List Char) : List (List Char) :=
  ((s.splitOn '.').map clean).filter fun piece => !piece.isEmpty

theorem categories_eq (text : String) : (ofText text).categories = (pieces text.toList).map String.ofList :=
  rfl

/-- No point of a text has letters or digits on both sides. -/
def IsUndivided (s : List Char) : Prop :=
  ∀ a b, s = a ++ '.' :: b → a.filter isAlphanumeric = [] ∨ b.filter isAlphanumeric = []

theorem isUndivided_of_not_mem (h : '.' ∉ s) : IsUndivided s := by
  rintro a b rfl
  exact absurd (List.mem_append_right a (List.mem_cons_self ..)) h

/-! ## Pieces -/

theorem pieces_append_cons (a b : List Char) : pieces (a ++ '.' :: b) = pieces a ++ pieces b := by
  rw [pieces, List.splitOn_append_cons_self, List.map_append, List.filter_append]
  rfl

/-- The pieces hold the letters and digits of a text. -/
theorem filter_flatten_pieces (s : List Char) :
    (pieces s).flatten.filter isAlphanumeric = s.filter isAlphanumeric := by
  have hpoint : s.filter isAlphanumeric = (s.splitOn '.').flatten.filter isAlphanumeric := by
    rw [flatten_splitOn, List.filter_filter]
    refine List.filter_congr fun c _ => ?_
    by_cases hc : c = '.'
    · subst hc
      rfl
    · simp [hc]
  rw [pieces, List.flatten_filter_not_isEmpty, hpoint, List.filter_flatten, List.filter_flatten,
    List.map_map]
  congr 1
  exact List.map_congr_left fun piece _ => filter_clean piece

theorem filter_ne_nil_of_mem_pieces {piece : List Char} (h : piece ∈ pieces s) :
    piece.filter isAlphanumeric ≠ [] := by
  obtain ⟨hmem, hne⟩ := List.mem_filter.1 h
  obtain ⟨part, -, rfl⟩ := List.mem_map.1 hmem
  exact (isClean_clean (by simpa using hne)).filter_ne_nil

theorem pieces_eq_nil_iff : pieces s = [] ↔ s.filter isAlphanumeric = [] := by
  constructor
  · intro h
    rw [← filter_flatten_pieces, h]
    rfl
  · intro h
    rw [← filter_flatten_pieces, List.filter_flatten, List.flatten_eq_nil_iff] at h
    exact List.eq_nil_iff_forall_not_mem.2 fun piece hpiece =>
      filter_ne_nil_of_mem_pieces hpiece (h _ (List.mem_map_of_mem hpiece))

theorem pieces_of_not_mem (h : '.' ∉ s) (hs : s.filter isAlphanumeric ≠ []) : pieces s = [clean s] := by
  rw [pieces, List.splitOn_eq_singleton h, List.map_singleton,
    List.filter_cons_of_pos (by simpa using clean_ne_nil_iff.2 hs), List.filter_nil]

theorem clean_append_cons_of_left (ha : a.filter isAlphanumeric = []) (b : List Char) :
    clean (a ++ '.' :: b) = clean b := by
  rw [clean, fields_append_cons (by decide), fields_eq_nil_of_filter ha, List.nil_append]
  rfl

theorem clean_append_cons_of_right (hb : b.filter isAlphanumeric = []) (a : List Char) :
    clean (a ++ '.' :: b) = clean a := by
  rw [clean, fields_append_cons (by decide), fields_eq_nil_of_filter hb, List.append_nil]
  rfl

/-! ## Undivided names -/

theorem IsUndivided.of_append (h : IsUndivided (a ++ '.' :: b)) : IsUndivided b := by
  rintro a' b' rfl
  rcases h (a ++ '.' :: a') b' (by simp) with hleft | hright
  · rw [List.filter_append, List.append_eq_nil_iff] at hleft
    exact .inl hleft.2
  · exact .inr hright

/-- An undivided name is one piece. -/
theorem pieces_of_isUndivided (h : IsUndivided s) (hs : s.filter isAlphanumeric ≠ []) :
    pieces s = [clean s] := by
  induction hlength : s.length using Nat.strongRecOn generalizing s with
  | ind n ih =>
    by_cases hpoint : '.' ∈ s
    · obtain ⟨a, b, rfl, ha⟩ := List.eq_append_cons_of_mem hpoint
      rw [List.filter_append, List.filter_cons_of_neg (by decide)] at hs
      rw [pieces_append_cons]
      rcases h a b rfl with hleft | hright
      · rw [hleft, List.nil_append] at hs
        rw [pieces_eq_nil_iff.2 hleft, clean_append_cons_of_left hleft, List.nil_append]
        exact ih b.length (by simp at hlength; omega) h.of_append hs rfl
      · rw [hright, List.append_nil] at hs
        rw [pieces_eq_nil_iff.2 hright, clean_append_cons_of_right hright, List.append_nil]
        exact pieces_of_not_mem ha hs
    · exact pieces_of_not_mem hpoint hs

/-- A name with letters or digits is undivided exactly when it is one piece. -/
theorem length_pieces_eq_one_iff (hs : s.filter isAlphanumeric ≠ []) :
    (pieces s).length = 1 ↔ IsUndivided s := by
  constructor
  · rintro h a b rfl
    rw [pieces_append_cons, List.length_append] at h
    rw [← pieces_eq_nil_iff, ← pieces_eq_nil_iff, ← List.length_eq_zero_iff, ← List.length_eq_zero_iff]
    omega
  · intro h
    rw [pieces_of_isUndivided h hs]
    rfl

/-- A name whose last piece holds all its letters and digits is undivided. -/
theorem isUndivided_of_getLast? {piece : List Char} (hlast : (pieces s).getLast? = some piece)
    (hlength : (piece.filter isAlphanumeric).length = (s.filter isAlphanumeric).length) :
    IsUndivided s := by
  obtain ⟨before, hpieces⟩ := List.getLast?_eq_some_iff.1 hlast
  have hall := congrArg List.length (filter_flatten_pieces s)
  rw [hpieces, List.flatten_append, List.flatten_singleton, List.filter_append, List.length_append,
    hlength] at hall
  have hrest : before.flatten.filter isAlphanumeric = [] :=
    List.length_eq_zero_iff.1 (by omega)
  rw [List.filter_flatten, List.flatten_eq_nil_iff] at hrest
  have hbefore : before = [] := List.eq_nil_iff_forall_not_mem.2 fun other hother =>
    filter_ne_nil_of_mem_pieces (hpieces ▸ List.mem_append_left _ hother)
      (hrest _ (List.mem_map_of_mem hother))
  have hs : s.filter isAlphanumeric ≠ [] := fun hnil => by
    rw [pieces_eq_nil_iff.2 hnil] at hlast
    cases hlast
  refine (length_pieces_eq_one_iff hs).1 ?_
  rw [hpieces, hbefore]
  rfl

/-! ## Underscores for other characters -/

section

variable {f : Char → Char}

/-- A text is cleaned alike when letters and digits stay and other characters become others. -/
theorem clean_map (hkeep : ∀ c, isAlphanumeric c = true → f c = c)
    (hclass : ∀ c, isAlphanumeric (f c) = isAlphanumeric c) (s : List Char) :
    clean (s.map f) = clean s := by
  have hfields : fields (fun c => !isAlphanumeric c) (s.map f) =
      (fields (fun c => !isAlphanumeric c) s).map (List.map f) :=
    fields_map (fun c => congrArg Bool.not (hclass c)) s
  have hsame : (fields (fun c => !isAlphanumeric c) s).map (List.map f) =
      fields (fun c => !isAlphanumeric c) s := by
    refine (List.map_congr_left fun run hrun => ?_).trans (List.map_id _)
    refine (List.map_congr_left fun c hc => ?_).trans (List.map_id _)
    have hmem : c ∈ (fields (fun c => !isAlphanumeric c) s).flatten := List.mem_flatten.2 ⟨run, hrun, hc⟩
    rw [flatten_runs] at hmem
    exact hkeep c (List.of_mem_filter hmem)
  rw [clean, hfields, hsame]
  rfl

theorem pieces_map (hkeep : ∀ c, isAlphanumeric c = true → f c = c)
    (hclass : ∀ c, isAlphanumeric (f c) = isAlphanumeric c) (hpoint : ∀ c, f c = '.' ↔ c = '.')
    (s : List Char) : pieces (s.map f) = pieces s := by
  have hsplit : (s.map f).splitOn '.' = (s.splitOn '.').map (List.map f) := by
    rw [List.splitOn_eq_splitOnP, List.splitOn_eq_splitOnP]
    exact splitOnP_map (fun c => Bool.eq_iff_iff.2 (by simpa using hpoint c)) s
  rw [pieces, hsplit, List.map_map, pieces]
  congr 1
  exact List.map_congr_left fun piece _ => clean_map hkeep hclass piece

end

/-- Underscores in the place of hyphens and spaces do not change categories. -/
theorem categories_stemText {file : FilePath} {stem : String} (h : file.stem? = some stem) :
    (ofText (stemText file)).categories = (ofText stem).categories := by
  rw [categories_eq, categories_eq, stemText, h]
  dsimp only
  rw [String.toList_ofList, pieces_map]
  · intro c hc
    refine if_neg ?_
    rintro (rfl | rfl)
    · exact absurd hc (by decide)
    · exact absurd hc (by decide)
  · intro c
    split
    · next hc =>
      rcases hc with rfl | rfl
      · decide
      · decide
    · rfl
  · intro c
    split
    · next hc =>
      rcases hc with rfl | rfl
      · decide
      · decide
    · exact Iff.rfl

/-! ## Names with several categories -/

/-- A name as it is cleaned. -/
def cleaned (name : String) : String :=
  String.ofList (clean name.toList)

/-- The name has a letter or a digit. -/
def HasAlphanumeric (name : String) : Prop :=
  ∃ c ∈ name.toList, isAlphanumeric c = true

-- Through the characters of the name: the other instance goes through all characters that there are.
instance (name : String) : Decidable (HasAlphanumeric name) :=
  List.decidableBEx (fun c => isAlphanumeric c = true) name.toList

theorem HasAlphanumeric.filter_ne_nil (h : HasAlphanumeric name) :
    name.toList.filter isAlphanumeric ≠ [] := by
  obtain ⟨c, hc, hletter⟩ := h
  exact List.ne_nil_of_mem (List.mem_filter.2 ⟨hc, hletter⟩)

theorem HasAlphanumeric.isClean_cleaned (h : HasAlphanumeric name) : IsClean (cleaned name).toList := by
  rw [cleaned, String.toList_ofList]
  exact isClean_clean (clean_ne_nil_iff.2 h.filter_ne_nil)

theorem categories_of_isUndivided (h : HasAlphanumeric name)
    (hname : IsUndivided name.toList) : (ofText name).categories = [cleaned name] := by
  rw [categories_eq, pieces_of_isUndivided hname h.filter_ne_nil]
  rfl

theorem length_categories_eq_one_iff (h : HasAlphanumeric name) :
    (ofText name).categories.length = 1 ↔ IsUndivided name.toList := by
  rw [categories_eq, List.length_map, length_pieces_eq_one_iff h.filter_ne_nil]

theorem length_categories_pos (h : HasAlphanumeric name) :
    0 < (ofText name).categories.length := by
  rw [categories_eq, List.length_map, List.length_pos_iff]
  exact fun hnil => h.filter_ne_nil (pieces_eq_nil_iff.1 hnil)

/-- The categories of some names, one after the other. -/
def categoriesOf (names : List String) : List String :=
  names.flatMap fun name => (ofText name).categories

/-- Names that are not divided are a category each. -/
theorem categoriesOf_of_isUndivided (h : ∀ name ∈ names, HasAlphanumeric name)
    (hnames : ∀ name ∈ names, IsUndivided name.toList) : categoriesOf names = names.map cleaned := by
  rw [categoriesOf, List.flatMap_congr fun name hname =>
    categories_of_isUndivided (h name hname) (hnames name hname), ← List.map_eq_flatMap]

theorem length_le_categoriesOf (h : ∀ name ∈ names, HasAlphanumeric name) :
    names.length ≤ (categoriesOf names).length := by
  induction names with
  | nil => exact Nat.le_refl 0
  | cons name rest ih =>
    have hname := length_categories_pos (h name (List.mem_cons_self ..))
    have hrest := ih fun name hname => h name (List.mem_cons_of_mem _ hname)
    rw [categoriesOf, List.flatMap_cons, List.length_append, List.length_cons, ← categoriesOf]
    omega

/-- Names that have no more categories than they are themselves are not divided. -/
theorem isUndivided_of_length_le (h : ∀ name ∈ names, HasAlphanumeric name)
    (hlength : (categoriesOf names).length ≤ names.length) :
    ∀ name ∈ names, IsUndivided name.toList := by
  induction names with
  | nil => exact fun name hname => (nomatch hname)
  | cons name rest ih =>
    have hfirst : HasAlphanumeric name := h name (List.mem_cons_self ..)
    have hothers : ∀ other ∈ rest, HasAlphanumeric other := fun other hother =>
      h other (List.mem_cons_of_mem _ hother)
    have hpos := length_categories_pos hfirst
    have hle := length_le_categoriesOf hothers
    rw [categoriesOf, List.flatMap_cons, List.length_append, List.length_cons,
      ← categoriesOf] at hlength
    intro other hother
    rcases List.mem_cons.1 hother with rfl | hother
    · exact (length_categories_eq_one_iff hfirst).1 (by omega)
    · exact ih hothers (by omega) other hother

theorem getLast?_categoriesOf (folders : List String) (h : HasAlphanumeric stem) :
    (categoriesOf (folders ++ [stem])).getLast? = (ofText stem).categories.getLast? := by
  rw [categoriesOf, List.flatMap_append, List.flatMap_singleton,
    List.getLast?_append_of_ne_nil _ (List.length_pos_iff.1 (length_categories_pos h))]

/-- The last category of a name reads like the whole name in the case of `ArrowBack` exactly when the name is
not divided: a part of it has fewer letters and digits. -/
theorem pascalCase_last_iff (h : HasAlphanumeric name) :
    pascalCase ((ofText name).categories.getLast?.getD Svg.defaultName) = pascalCase (cleaned name) ↔
      IsUndivided name.toList := by
  constructor
  · intro heq
    have hne : pieces name.toList ≠ [] := fun hnil => h.filter_ne_nil (pieces_eq_nil_iff.1 hnil)
    obtain ⟨piece, hpiece⟩ := Option.isSome_iff_exists.1 (List.getLast?_isSome.2 hne)
    refine isUndivided_of_getLast? hpiece ?_
    rw [categories_eq, List.getLast?_map, hpiece] at heq
    have hlength := congrArg (·.toList.length) heq
    simpa only [pascalCase, cleaned, Option.map_some, Option.getD_some, String.toList_ofList, length_pascal,
      filter_clean] using hlength
  · intro hname
    rw [categories_of_isUndivided h hname]
    rfl

end VectorIcon.Name
