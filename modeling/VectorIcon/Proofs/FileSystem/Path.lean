import VectorIcon.FileSystem.Path

/-!
# The steps of joined paths

An entry of a directory adds one step to the path of the directory, whatever that path is
(`components_join`). So a path below a directory has the steps of the directory first, and then those of
its own names (`components_below`).
-/

namespace VectorIcon.FilePath

/-- A name that an entry of a directory can have. -/
structure IsEntry (name : String) : Prop where
  ne_empty : name.toList ≠ []
  ne_here : name.toList ≠ ['.']
  ne_up : name.toList ≠ ['.', '.']
  slash_not_mem : '/' ∉ name.toList

theorem isEntry_iff {name : String} : IsEntry name ↔ name.toList ≠ [] ∧ name.toList ≠ ['.'] ∧
    name.toList ≠ ['.', '.'] ∧ '/' ∉ name.toList := by
  constructor
  · exact fun h => ⟨h.ne_empty, h.ne_here, h.ne_up, h.slash_not_mem⟩
  · rintro ⟨hempty, hhere, hup, hslash⟩
    exact ⟨hempty, hhere, hup, hslash⟩

instance (name : String) : Decidable (IsEntry name) :=
  decidable_of_iff _ isEntry_iff.symm

theorem step?_of_isEntry {name : String} (h : IsEntry name) :
    step? name.toList = some (.name name) := by
  have hskipped : ¬ (name.toList = [] ∨ name.toList = ['.']) := not_or.2 ⟨h.ne_empty, h.ne_here⟩
  unfold step?
  rw [if_neg hskipped, if_neg h.ne_up, String.ofList_toList]

/-! ## The first step -/

/-- What follows the first piece does not tell how a path starts, unless that piece is all there is. -/
theorem lead_concat_eq {pieces : List (List Char)} (h : pieces ≠ []) (s s' : List Char) :
    lead (pieces ++ [s]) = lead (pieces ++ [s']) := by
  match pieces with
  | [] => exact absurd rfl h
  | [] :: [] => rfl
  | [] :: _ :: _ => rfl
  | (c :: cs) :: rest =>
    by_cases hhere : c :: cs = ['.']
    · rw [hhere]
      rfl
    · simp [lead, hhere]

theorem lead_concat {pieces : List (List Char)} (h : pieces ≠ []) (hempty : pieces ≠ [[]])
    (s : List Char) : lead (pieces ++ [s]) = lead pieces := by
  match pieces with
  | [] => exact absurd rfl h
  | [] :: [] => exact absurd rfl hempty
  | [] :: _ :: _ => rfl
  | (c :: cs) :: rest =>
    by_cases hhere : c :: cs = ['.']
    · rw [hhere]
      rfl
    · simp [lead, hhere]

theorem eq_nil_of_splitOn {s : List Char} (h : s.splitOn '/' = [[]]) : s = [] := by
  have hjoined : ['/'].intercalate (s.splitOn '/') = s := List.intercalate_splitOn '/'
  rw [h] at hjoined
  exact hjoined.symm

/-! ## Joined paths -/

theorem components_of_pieces {p : FilePath} {pieces : List (List Char)}
    (h : p.text.toList.splitOn '/' = pieces) :
    p.components = lead pieces ++ pieces.filterMap step? := by
  rw [← h]
  rfl

/-- An entry of a directory adds its name to the steps of the directory. -/
theorem components_join (p : FilePath) {name : String} (h : IsEntry name) :
    (p.join name).components = p.components ++ [.name name] := by
  have hname : name.toList.splitOn '/' = [name.toList] := List.splitOn_eq_singleton h.slash_not_mem
  have hstep : [name.toList].filterMap step? = [.name name] := by
    rw [List.filterMap_cons_some (step?_of_isEntry h), List.filterMap_nil]
  unfold join
  cases hlast : p.text.toList.getLast? with
  | none =>
    have hempty : p.text.toList = [] := List.getLast?_eq_none_iff.1 hlast
    have hlead : lead [name.toList] = [] := by
      unfold lead
      split
      · next heq => simp at heq
      · next heq => exact absurd (List.cons.inj heq).1 h.ne_here
      · rfl
    have hpieces : p.text.toList.splitOn '/' = [[]] := by
      rw [hempty]
      rfl
    rw [components_of_pieces (p := ⟨name⟩) hname, components_of_pieces hpieces, hlead, hstep]
    rfl
  | some c =>
    obtain ⟨start, hstart⟩ := List.getLast?_eq_some_iff.1 hlast
    have hne : start.splitOn '/' ≠ [] := List.splitOn_ne_nil '/' start
    by_cases hslash : c = '/'
    · have hpieces : p.text.toList.splitOn '/' = start.splitOn '/' ++ [[]] := by
        rw [hstart, hslash, List.splitOn_append_cons_self]
        rfl
      have hjoined : (p.text ++ name).toList.splitOn '/' = start.splitOn '/' ++ [name.toList] := by
        rw [String.toList_append, hstart, hslash, List.append_assoc, List.singleton_append,
          List.splitOn_append_cons_self, hname]
      simp only [if_pos hslash]
      rw [components_of_pieces (p := ⟨p.text ++ name⟩) hjoined, components_of_pieces hpieces,
        lead_concat_eq hne name.toList [], List.filterMap_append, List.filterMap_append, hstep,
        List.append_assoc]
      congr 1
      rw [List.append_assoc]
      rfl
    · have hnonempty : p.text.toList.splitOn '/' ≠ [[]] := by
        intro hsingle
        rw [eq_nil_of_splitOn hsingle] at hstart
        simp at hstart
      have hjoined : (p.text ++ "/" ++ name).toList.splitOn '/' =
          p.text.toList.splitOn '/' ++ [name.toList] := by
        rw [String.toList_append, String.toList_append, List.append_assoc]
        show (p.text.toList ++ '/' :: name.toList).splitOn '/' = _
        rw [List.splitOn_append_cons_self, hname]
      simp only [if_neg hslash]
      rw [components_of_pieces (p := ⟨p.text ++ "/" ++ name⟩) hjoined,
        lead_concat (List.splitOn_ne_nil '/' _) hnonempty, List.filterMap_append, hstep,
        ← List.append_assoc]
      rfl

theorem components_below (p : FilePath) {names : List String} (h : ∀ name ∈ names, IsEntry name) :
    (names.foldl join p).components = p.components ++ names.map .name := by
  induction names generalizing p with
  | nil => simp
  | cons name rest ih =>
    rw [List.foldl_cons, ih (p.join name) fun name' h' => h name' (List.mem_cons_of_mem _ h'),
      components_join p (h name (List.mem_cons_self ..)), List.append_assoc]
    rfl

/-- Entries below a directory are told apart by their paths. -/
theorem eq_of_foldl_join_eq {p : FilePath} {names names' : List String}
    (h : ∀ name ∈ names, IsEntry name) (h' : ∀ name ∈ names', IsEntry name)
    (heq : names.foldl join p = names'.foldl join p) : names = names' := by
  have hsteps := congrArg components heq
  rw [components_below p h, components_below p h'] at hsteps
  exact (List.map_inj_right fun _ _ => Component.name.inj).1 (List.append_cancel_left hsteps)

/-! ## Extensions -/

/-- The extension of a file name is what follows its last point, when there is something before. -/
theorem cutExtension_eq_some_iff {name stem extension : List Char} :
    cutExtension name = (stem, some extension) ↔
      stem ≠ [] ∧ '.' ∉ extension ∧ name = stem ++ '.' :: extension := by
  constructor
  · intro h
    have hpoint : '.' ∉ name.reverse.takeWhile (· != '.') := fun hmem =>
      absurd (List.all_eq_true.1 List.all_takeWhile _ hmem) (by decide)
    have hname : name.reverse.takeWhile (· != '.') ++ name.reverse.dropWhile (· != '.') = name.reverse :=
      List.takeWhile_append_dropWhile
    have hfirst := List.head?_dropWhile_not (· != '.') name.reverse
    unfold cutExtension at h
    dsimp only at h
    generalize name.reverse.takeWhile (· != '.') = ending at h hpoint hname
    generalize name.reverse.dropWhile (· != '.') = before at hname hfirst
    obtain rfl : name = before.reverse ++ ending.reverse := by
      rw [← List.reverse_append, hname, List.reverse_reverse]
    rw [List.length_append, Nat.add_sub_cancel, List.take_left] at h
    split at h
    · cases h
    · next hlength =>
      obtain ⟨hstem, hextension⟩ := Prod.mk.inj h
      obtain rfl := Option.some.inj hextension
      cases before with
      | nil => exact absurd (Nat.zero_le 1) hlength
      | cons c rest =>
        obtain rfl : c = '.' := by simpa using hfirst
        rw [List.reverse_cons, List.dropLast_concat] at hstem
        subst hstem
        refine ⟨?_, by simpa using hpoint, by simp⟩
        rintro heq
        simp [heq] at hlength
  · rintro ⟨hstem, hpoint, rfl⟩
    have hending : ((stem ++ '.' :: extension).reverse.takeWhile (· != '.')).reverse = extension := by
      rw [List.reverse_append, List.reverse_cons, List.append_assoc, List.takeWhile_append_of_pos]
      · simp
      · intro c hc
        have hne : c ≠ '.' := fun heq => hpoint (heq ▸ List.mem_reverse.1 hc)
        simpa using hne
    have hbefore : (stem ++ '.' :: extension).take ((stem ++ '.' :: extension).length - extension.length) =
        stem ++ ['.'] := by
      rw [List.append_cons, List.length_append, Nat.add_sub_cancel, List.take_left]
    have hlength : ¬ (stem ++ ['.']).length ≤ 1 := by
      have hpos := List.length_pos_iff.2 hstem
      rw [List.length_append, List.length_singleton]
      omega
    unfold cutExtension
    dsimp only
    rw [hending, hbefore, if_neg hlength, List.dropLast_concat]

variable {p : FilePath} {stem extension : String}

/-- A file with an extension has a stem before it. -/
theorem exists_of_extension? (h : p.extension? = some extension) :
    ∃ stem, stem ≠ "" ∧ p.fileName? = some (stem ++ "." ++ extension) := by
  obtain ⟨name, hname, hcut⟩ := Option.bind_eq_some_iff.1 h
  obtain ⟨ending, hending, rfl⟩ := Option.map_eq_some_iff.1 hcut
  obtain ⟨hstem, -, hchars⟩ := cutExtension_eq_some_iff.1 (Prod.ext rfl hending)
  refine ⟨String.ofList (cutExtension name.toList).1, fun hempty => hstem ?_, ?_⟩
  · exact String.ofList_eq_empty_iff.1 hempty
  · refine hname.trans (congrArg some (String.toList_inj.1 ?_))
    simp only [String.toList_append, String.toList_ofList, List.append_assoc]
    exact hchars

theorem stem?_of_fileName? (h : p.fileName? = some (stem ++ "." ++ extension)) (hstem : stem ≠ "")
    (hpoint : '.' ∉ extension.toList) : p.stem? = some stem := by
  have hcut : cutExtension (stem ++ "." ++ extension).toList = (stem.toList, some extension.toList) :=
    cutExtension_eq_some_iff.2 ⟨by simpa using hstem, hpoint, by simp⟩
  rw [stem?, h, Option.map_some, hcut, String.ofList_toList]

end VectorIcon.FilePath
