import VectorIcon.Proofs.FileSystem.Tree

/-!
# What saving a file changes

A file is saved with the directories that it is in. This changes one place at most (`save_cases`): the
file is there afterwards, and the contents of all others are as they were. The directories that are new
are above the place of the file, if its path is settled (`hasDirectory_save`).
-/

namespace VectorIcon.FileTree

open FilePath

variable {current : List String} {t t' : FileTree current}
variable {names pre place base : List String} {steps : List Component}
variable {path : FilePath} {bytes : ByteArray}

/-! ## Making directories -/

theorem hasDirectory_makeDirectory :
    (t.makeDirectory names).hasDirectory pre = true ↔ t.hasDirectory pre = true ∨ pre <+: names := by
  unfold makeDirectory
  by_cases h : t.hasDirectory names = true
  · rw [if_pos h]
    exact ⟨.inl, fun hor => hor.elim id (hasDirectory_above h)⟩
  · rw [if_neg h, hasDirectory_iff, hasDirectory_iff]
    simp only [List.mem_append, List.mem_singleton]
    constructor
    · rintro (hcurrent | ⟨d, hd | rfl, hpre⟩ | hfile)
      · exact .inl (.inl hcurrent)
      · exact .inl (.inr (.inl ⟨d, hd, hpre⟩))
      · exact .inr hpre
      · exact .inl (.inr (.inr hfile))
    · rintro ((hcurrent | ⟨d, hd, hpre⟩ | hfile) | hpre)
      · exact .inl hcurrent
      · exact .inr (.inl ⟨d, .inl hd, hpre⟩)
      · exact .inr (.inr hfile)
      · exact .inr (.inl ⟨names, .inr rfl, hpre⟩)

theorem files_makeDirectory : (t.makeDirectory names).files = t.files := by
  unfold makeDirectory
  split <;> rfl

theorem content?_makeDirectory : (t.makeDirectory names).content? pre = t.content? pre := by
  rw [content?, content?, files_makeDirectory]

theorem grows_makeDirectory (t : FileTree current) (names : List String) :
    t.Grows (t.makeDirectory names) :=
  fun _ h => hasDirectory_makeDirectory.2 (.inl h)

/-- The first of the directories to be made stops the making, or is passed: a name that is no directory
yet is made one. -/
theorem makeDirectories_cons_cases (t : FileTree current) (names : List String) (step : Component)
    (steps : List Component) :
    (t.makeDirectories names (step :: steps)).2 = t ∨
      ∃ made, (made = t ∨ made = t.makeDirectory (next names step)) ∧
        (t.makeDirectories names (step :: steps)).2 = (made.makeDirectories (next names step) steps).2 := by
  cases step with
  | name name =>
    rw [makeDirectories]
    split
    · exact .inl rfl
    · exact .inr ⟨_, .inr rfl, rfl⟩
  | here => exact .inr ⟨t, .inl rfl, rfl⟩
  | up => exact .inr ⟨t, .inl rfl, rfl⟩
  | root => exact .inr ⟨t, .inl rfl, rfl⟩

theorem grows_makeDirectories (t : FileTree current) (names : List String) (steps : List Component) :
    t.Grows (t.makeDirectories names steps).2 := by
  induction steps generalizing t names with
  | nil => exact Grows.refl t
  | cons step rest ih =>
    rcases makeDirectories_cons_cases t names step rest with heq | ⟨made, hmade, heq⟩
    · rw [heq]
      exact Grows.refl t
    · rw [heq]
      rcases hmade with rfl | rfl
      · exact ih _ (next names step)
      · exact (grows_makeDirectory t (next names step)).trans (ih _ (next names step))

theorem content?_makeDirectories (t : FileTree current) (names : List String) (steps : List Component) :
    (t.makeDirectories names steps).2.content? pre = t.content? pre := by
  induction steps generalizing t names with
  | nil => rfl
  | cons step rest ih =>
    rcases makeDirectories_cons_cases t names step rest with heq | ⟨made, hmade, heq⟩
    · rw [heq]
    · rw [heq, ih]
      rcases hmade with rfl | rfl
      · rfl
      · exact content?_makeDirectory

/-- Directories that are made along names are above the last of them. -/
theorem hasDirectory_makeDirectories_names {lower : List String}
    (h : (t.makeDirectories base (lower.map .name)).2.hasDirectory pre = true) :
    t.hasDirectory pre = true ∨ pre <+: base ++ lower := by
  induction lower generalizing t base with
  | nil => exact .inl h
  | cons name rest ih =>
    rw [List.map_cons] at h
    rcases makeDirectories_cons_cases t base (.name name) (rest.map .name) with heq | ⟨made, hmade, heq⟩
    · rw [heq] at h
      exact .inl h
    · have hassoc : base ++ name :: rest = base ++ [name] ++ rest := by simp
      rw [heq] at h
      rw [hassoc]
      rcases ih h with hdir | hpre
      · rcases hmade with rfl | rfl
        · exact .inl hdir
        · exact (hasDirectory_makeDirectory.1 hdir).imp_right (·.trans (List.prefix_append ..))
      · exact .inr hpre

/-- Directories that are made on a way whose first part is there are above its end. -/
theorem hasDirectory_makeDirectories {upper : List Component} {lower : List String}
    (hupper : t.walk names upper = .ok base)
    (h : (t.makeDirectories names (upper ++ lower.map .name)).2.hasDirectory pre = true) :
    t.hasDirectory pre = true ∨ pre <+: base ++ lower := by
  induction upper generalizing t names with
  | nil =>
    cases hupper
    exact hasDirectory_makeDirectories_names h
  | cons step rest ih =>
    rw [List.cons_append] at h
    rcases makeDirectories_cons_cases t names step (rest ++ lower.map .name) with heq | ⟨made, hmade, heq⟩
    · rw [heq] at h
      exact .inl h
    obtain ⟨-, hrest⟩ := walk_of_walk_cons hupper
    have hgrows : t.Grows made := by
      rcases hmade with rfl | rfl
      · exact Grows.refl _
      · exact grows_makeDirectory t _
    rw [heq] at h
    rcases ih (walk_of_grows hgrows hrest) h with hdir | hpre
    · rcases hmade with rfl | rfl
      · exact .inl hdir
      rcases hasDirectory_makeDirectory.1 hdir with hdir | hpre
      · exact .inl hdir
      -- the way ends at the directory, or goes on from it, and then it was there before
      cases rest with
      | nil =>
        cases hrest
        exact .inr (hpre.trans (List.prefix_append ..))
      | cons step' rest => exact .inl (hasDirectory_above (walk_of_walk_cons hrest).1 hpre)
    · exact .inr hpre

/-! ## Writing -/

theorem lookup_cons_eq (file : List String × ByteArray) (files : List (List String × ByteArray)) :
    (file :: files).lookup pre = if pre = file.1 then some file.2 else files.lookup pre := by
  by_cases h : pre = file.1
  · rw [if_pos h, h, List.lookup_cons_self]
  · have hbeq : (pre == file.1) = false := beq_eq_false_iff_ne.2 h
    rw [if_neg h, List.lookup_cons, hbeq]

theorem lookup_setContent (files : List (List String × ByteArray)) :
    (setContent names bytes files).lookup pre =
      if pre = names then some bytes else files.lookup pre := by
  induction files with
  | nil => rw [setContent, lookup_cons_eq]
  | cons file rest ih =>
    rw [setContent, lookup_cons_eq file rest]
    by_cases hplace : file.1 = names
    · rw [if_pos hplace, lookup_cons_eq, hplace]
      split <;> rfl
    · rw [if_neg hplace, lookup_cons_eq, ih]
      by_cases hfile : pre = file.1
      · have hne : pre ≠ names := fun h => hplace (hfile.symm.trans h)
        rw [if_pos hfile, if_neg hne, if_pos hfile]
      · rw [if_neg hfile, if_neg hfile]

/-- The files of a content that is put in its place have the names of the files before, and its own. -/
theorem exists_mem_setContent (p : List String → Prop) (files : List (List String × ByteArray)) :
    (∃ file ∈ setContent names bytes files, p file.1) ↔ p names ∨ ∃ file ∈ files, p file.1 := by
  induction files with
  | nil => simp [setContent]
  | cons file rest ih =>
    rw [setContent]
    split
    · next heq => simp [heq]
    · simp only [List.mem_cons, exists_eq_or_imp] at ih ⊢
      rw [ih]
      exact or_left_comm

/-- The tree with a content at some names. -/
def withContent (t : FileTree current) (names : List String) (bytes : ByteArray) : FileTree current :=
  { t with files := setContent names bytes t.files }

theorem content?_withContent : (t.withContent names bytes).content? pre =
    if pre = names then some bytes else t.content? pre :=
  lookup_setContent t.files

/-- A file in a directory that is there makes no directory. -/
theorem hasDirectory_withContent (h : t.hasDirectory place.dropLast = true) :
    (t.withContent place bytes).hasDirectory pre = true ↔ t.hasDirectory pre = true := by
  have hfiles : (∃ file ∈ (t.withContent place bytes).files, pre <+: file.1 ∧ pre ≠ file.1) ↔
      (pre <+: place ∧ pre ≠ place) ∨ ∃ file ∈ t.files, pre <+: file.1 ∧ pre ≠ file.1 :=
    exists_mem_setContent (fun names => pre <+: names ∧ pre ≠ names) t.files
  rw [hasDirectory_iff, hasDirectory_iff, hfiles]
  refine ⟨?_, fun hdir => hdir.imp_right (·.imp_right .inr)⟩
  rintro (hcurrent | hdir | ⟨hpre, hne⟩ | hfile)
  · exact .inl hcurrent
  · exact .inr (.inl hdir)
  · have hlength : pre.length ≠ place.length := fun hlength => hne (hpre.eq_of_length hlength)
    have hdrop : pre <+: place.dropLast := by
      rw [List.dropLast_eq_take, List.prefix_take_iff]
      exact ⟨hpre, Nat.le_sub_one_of_lt (Nat.lt_of_le_of_ne hpre.length_le hlength)⟩
    exact hasDirectory_iff.1 (hasDirectory_above h hdrop)
  · exact .inr (.inr hfile)

/-- A file is written at its place, if its path leads to one in a directory and to no directory. -/
theorem write_cases (t : FileTree current) (path : FilePath) (bytes : ByteArray) :
    (∃ fault, t.write path bytes = (.error fault, t)) ∨
      ∃ place, t.locate path = .ok place ∧ endsAsDirectory path = false ∧
        t.hasDirectory place.dropLast = true ∧
        t.write path bytes = (.ok (), t.withContent place bytes) := by
  unfold write
  cases hlocate : t.locate path with
  | error fault => exact .inl ⟨fault, rfl⟩
  | ok place =>
    dsimp only
    by_cases htaken : (t.hasDirectory place || endsAsDirectory path) = true
    · rw [if_pos htaken]
      exact .inl ⟨_, rfl⟩
    by_cases hdir : t.hasDirectory place.dropLast = true
    · rw [if_neg htaken, if_neg (by simp [hdir])]
      exact .inr ⟨place, rfl, (Bool.or_eq_false_iff.1 (Bool.eq_false_iff.2 htaken)).2, hdir, rfl⟩
    · rw [if_neg htaken, if_pos (by simpa using hdir)]
      exact .inl ⟨_, rfl⟩

/-! ## Saving -/

/-- The tree with the directories that a file is to be in. -/
def withFolders (t : FileTree current) (path : FilePath) : FileTree current :=
  (t.makeDirectories current path.components.dropLast).2

/-- A file that is not saved leaves the directories that were made for it; one that is saved is found on
its path. -/
theorem save_cases (t : FileTree current) (path : FilePath) (bytes : ByteArray) :
    (∃ fault, t.save path bytes = (.error fault, t.withFolders path)) ∨
      ∃ place, (t.withFolders path).hasDirectory place.dropLast = true ∧
        t.save path bytes = (.ok (), (t.withFolders path).withContent place bytes) ∧
        ((t.withFolders path).withContent place bytes).locate path = .ok place := by
  unfold save withFolders
  cases hmade : t.makeDirectories current path.components.dropLast with
  | mk result made =>
    cases result with
    | error fault => exact .inl ⟨fault, rfl⟩
    | ok _ =>
      dsimp only
      rcases write_cases made path bytes with hfailed | ⟨place, hlocate, hends, hdir, hwritten⟩
      · exact .inl hfailed
      · refine .inr ⟨place, hdir, hwritten, ?_⟩
        have hgrows : made.Grows (made.withContent place bytes) :=
          fun _ h => (hasDirectory_withContent hdir).2 h
        exact locate_eq_of_walk (isEmpty_of_locate hlocate) hends
          (walk_of_grows hgrows (walk_of_locate hlocate))

theorem content?_withFolders : (t.withFolders path).content? names = t.content? names :=
  content?_makeDirectories t current path.components.dropLast

theorem grows_save (t : FileTree current) (path : FilePath) (bytes : ByteArray) :
    t.Grows (t.save path bytes).2 := by
  have hfolders : t.Grows (t.withFolders path) := grows_makeDirectories t current _
  rcases save_cases t path bytes with ⟨fault, hsave⟩ | ⟨place, hdir, hsave, -⟩
  · rw [hsave]
    exact hfolders
  · rw [hsave]
    exact hfolders.trans fun _ h => (hasDirectory_withContent hdir).2 h

/-- Saving a file changes the content of one place at most. -/
theorem content?_save (t : FileTree current) (path : FilePath) (bytes : ByteArray) :
    ((∃ fault, (t.save path bytes).1 = .error fault) ∧
        ∀ names, (t.save path bytes).2.content? names = t.content? names) ∨
      (t.save path bytes).1 = .ok () ∧
        ∃ place, (t.save path bytes).2.locate path = .ok place ∧
          ∀ names, (t.save path bytes).2.content? names =
            if names = place then some bytes else t.content? names := by
  rcases save_cases t path bytes with ⟨fault, hsave⟩ | ⟨place, -, hsave, hlocate⟩
  · rw [hsave]
    exact .inl ⟨⟨fault, rfl⟩, fun names => content?_withFolders⟩
  · rw [hsave]
    refine .inr ⟨rfl, place, hlocate, fun names => ?_⟩
    rw [content?_withContent, content?_withFolders]

/-- The directories that are new after a file is saved are those that it is in, if its path goes on by
names only where it was not found. -/
theorem hasDirectory_save {upper : List Component} {lower : List String} {last : String}
    (hsteps : path.components = upper ++ (lower ++ [last]).map .name)
    (hupper : t.walk current upper = .ok base)
    (h : (t.save path bytes).2.hasDirectory pre = true) :
    t.hasDirectory pre = true ∨ pre <+: base ++ lower := by
  have hfolders : (t.withFolders path).hasDirectory pre = true := by
    rcases save_cases t path bytes with ⟨fault, hsave⟩ | ⟨place, hdir, hsave, -⟩
    · rwa [hsave] at h
    · rw [hsave] at h
      exact (hasDirectory_withContent hdir).1 h
  have hdrop : path.components.dropLast = upper ++ lower.map .name := by
    rw [hsteps, List.map_append, List.map_cons, List.map_nil, ← List.append_assoc,
      List.dropLast_concat]
  rw [withFolders, hdrop] at hfolders
  exact hasDirectory_makeDirectories hupper hfolders

end VectorIcon.FileTree
