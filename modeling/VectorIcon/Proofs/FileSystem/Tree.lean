import VectorIcon.FileSystem.Tree
import VectorIcon.Proofs.FileSystem.Path

/-!
# Where paths lead

A tree of files only gains directories, and what a path leads to in one tree it leads to in every tree
that has grown from it (`walk_of_grows`). A path that is found nowhere may lead somewhere later: one that
goes up from a directory that is not there yet comes out at files that were always there. Paths that do
not (`Settles`) have one place, and what is found on them is what is found at that place
(`isPresent_eq_of_settles`, `read_eq_of_settles`).
-/

namespace VectorIcon.FileTree

open FilePath

variable {current : List String} {t t' t'' : FileTree current}
variable {names pre place : List String} {step : Component} {steps : List Component}

/-! ## Directories -/

theorem hasDirectory_iff : t.hasDirectory names = true ↔
    names <+: current ∨ (∃ d ∈ t.directories, names <+: d) ∨
      ∃ file ∈ t.files, names <+: file.1 ∧ names ≠ file.1 := by
  simp [hasDirectory, or_assoc]

/-- What a directory is in is a directory. -/
theorem hasDirectory_above (h : t.hasDirectory names = true) (hpre : pre <+: names) :
    t.hasDirectory pre = true := by
  rw [hasDirectory_iff] at h ⊢
  rcases h with hnames | ⟨d, hd, hnames⟩ | ⟨file, hfile, hnames, hne⟩
  · exact .inl (hpre.trans hnames)
  · exact .inr (.inl ⟨d, hd, hpre.trans hnames⟩)
  · refine .inr (.inr ⟨file, hfile, hpre.trans hnames, ?_⟩)
    rintro rfl
    exact hne (hnames.eq_of_length (Nat.le_antisymm hnames.length_le hpre.length_le))

/-- What a file is in is a directory. -/
theorem hasDirectory_of_content {bytes : ByteArray} (h : t.content? names = some bytes)
    (hpre : pre <+: names) (hne : pre ≠ names) : t.hasDirectory pre = true := by
  obtain ⟨before, after, hfiles, -⟩ := List.lookup_eq_some_iff.1 h
  refine hasDirectory_iff.2 (.inr (.inr ⟨(names, bytes), ?_, hpre, hne⟩))
  rw [hfiles]
  exact List.mem_append_right before (List.mem_cons_self ..)

/-- The directories of one tree are directories of another. -/
def Grows (t t' : FileTree current) : Prop :=
  ∀ names, t.hasDirectory names = true → t'.hasDirectory names = true

theorem Grows.refl (t : FileTree current) : t.Grows t :=
  fun _ h => h

theorem Grows.trans (h : t.Grows t') (h' : t'.Grows t'') : t.Grows t'' :=
  fun names hnames => h' names (h names hnames)

/-! ## Walks -/

theorem walk_cons (h : t.hasDirectory names = true) :
    t.walk names (step :: steps) = t.walk (next names step) steps :=
  if_pos h

/-- A step of a walk that leads somewhere is taken from a directory. -/
theorem walk_of_walk_cons (h : t.walk names (step :: steps) = .ok place) :
    t.hasDirectory names = true ∧ t.walk (next names step) steps = .ok place := by
  rw [walk] at h
  split at h
  · next hdir => exact ⟨hdir, h⟩
  · cases h

/-- A path from the root leads to the same place from every current directory. -/
theorem walk_root : t.walk current (.root :: steps) = t.walk [] steps :=
  walk_cons (hasDirectory_iff.2 (.inl (List.prefix_refl current)))

/-- The top is above itself. -/
theorem walk_up_nil : t.walk [] (.up :: steps) = t.walk [] steps :=
  walk_cons (hasDirectory_iff.2 (.inl List.nil_prefix))

theorem walk_of_grows (h : t.Grows t') (hwalk : t.walk names steps = .ok place) :
    t'.walk names steps = .ok place := by
  induction steps generalizing names with
  | nil => exact hwalk
  | cons step rest ih =>
    obtain ⟨hdir, hrest⟩ := walk_of_walk_cons hwalk
    rw [walk_cons (h names hdir)]
    exact ih hrest

/-- After steps that lead somewhere a walk goes on from there. -/
theorem walk_append {upper : List Component} (h : t.walk names upper = .ok place) :
    t.walk names (upper ++ steps) = t.walk place steps := by
  induction upper generalizing names with
  | nil =>
    cases h
    rfl
  | cons step rest ih =>
    obtain ⟨hdir, hrest⟩ := walk_of_walk_cons h
    rw [List.cons_append, walk_cons hdir]
    exact ih hrest

/-- A walk along names ends at these names, unless a directory on the way is missing; and then there is
nothing at these names. -/
theorem walk_names (t : FileTree current) (base names : List String) :
    t.walk base (names.map .name) = .ok (base ++ names) ∨
      (∃ fault, t.walk base (names.map .name) = .error fault) ∧
        t.hasDirectory (base ++ names) = false ∧ t.content? (base ++ names) = none := by
  induction names generalizing base with
  | nil => exact .inl (by rw [List.append_nil]; rfl)
  | cons name rest ih =>
    have hassoc : base ++ name :: rest = base ++ [name] ++ rest := by simp
    rw [List.map_cons]
    by_cases hdir : t.hasDirectory base = true
    · rw [walk_cons hdir, hassoc]
      exact ih (base ++ [name])
    · have hpre : base <+: base ++ name :: rest := List.prefix_append ..
      have hne : base ≠ base ++ name :: rest := by simp
      refine .inr ⟨⟨_, if_neg hdir⟩, ?_, ?_⟩
      · exact Bool.eq_false_iff.2 fun h => hdir (hasDirectory_above h hpre)
      · exact Option.eq_none_iff_forall_ne_some.2 fun bytes h =>
          hdir (hasDirectory_of_content h hpre hne)

/-- A walk that goes on by names passes the place before them. -/
theorem exists_of_walk_append (h : t.walk pre (steps ++ names.map .name) = .ok place) :
    ∃ base, t.walk pre steps = .ok base ∧ place = base ++ names := by
  induction steps generalizing pre with
  | nil =>
    refine ⟨pre, rfl, ?_⟩
    rw [List.nil_append] at h
    rcases walk_names t pre names with hok | ⟨⟨fault, herror⟩, -⟩
    · exact Except.ok.inj (h.symm.trans hok)
    · rw [herror] at h
      cases h
  | cons step rest ih =>
    obtain ⟨hdir, hrest⟩ := walk_of_walk_cons h
    rw [walk_cons hdir]
    exact ih hrest

/-! ## Settled paths -/

/-- A path that goes on by names only where it is not found yet, and the place that it leads to once
the directories of these names are there. -/
def Settles (t : FileTree current) (path : FilePath) (place : List String) : Prop :=
  ∃ upper base names, path.components = upper ++ names.map .name ∧ t.walk current upper = .ok base ∧
    place = base ++ names

/-- Going up, the path leaves only directories that are there. -/
def IsSettled (t : FileTree current) (path : FilePath) : Prop :=
  ∃ place, t.Settles path place

variable {path : FilePath}

/-- A settled path is found at its place or not at all, and where it is not found there is nothing at
its place. -/
theorem Settles.walk_cases (h : t.Settles path place) (hgrows : t.Grows t') :
    t'.walk current path.components = .ok place ∨
      (∃ fault, t'.walk current path.components = .error fault) ∧
        t'.hasDirectory place = false ∧ t'.content? place = none := by
  obtain ⟨upper, base, names, hsteps, hbase, rfl⟩ := h
  rw [hsteps, walk_append (walk_of_grows hgrows hbase)]
  exact walk_names t' base names

theorem Settles.of_grows (h : t.Settles path place) (hgrows : t.Grows t') :
    t'.Settles path place := by
  obtain ⟨upper, base, names, hsteps, hbase, hplace⟩ := h
  exact ⟨upper, base, names, hsteps, walk_of_grows hgrows hbase, hplace⟩

theorem IsSettled.of_grows (h : t.IsSettled path) (hgrows : t.Grows t') : t'.IsSettled path := by
  obtain ⟨place, hplace⟩ := h
  exact ⟨place, hplace.of_grows hgrows⟩

/-- A path that leads somewhere is settled. -/
theorem settles_of_walk (h : t.walk current path.components = .ok place) : t.Settles path place :=
  ⟨path.components, place, [], by simp, h, by simp⟩

/-- A path below a settled one is settled. -/
theorem Settles.below (h : t.Settles path place) (hnames : ∀ name ∈ names, IsEntry name) :
    t.Settles (names.foldl FilePath.join path) (place ++ names) := by
  obtain ⟨upper, base, lower, hsteps, hbase, rfl⟩ := h
  refine ⟨upper, base, lower ++ names, ?_, hbase, List.append_assoc ..⟩
  rw [components_below path hnames, hsteps, List.map_append, List.append_assoc]

theorem locate_of_ok (hpath : path.text.isEmpty = false)
    (hwalk : t.walk current path.components = .ok place) :
    t.locate path =
      if endsAsDirectory path && (t.content? place).isSome then .error .notDirectory
      else .ok place := by
  rw [locate, hpath, hwalk]
  rfl

theorem locate_of_error {fault : FileFault} (hwalk : t.walk current path.components = .error fault) :
    ∃ fault', t.locate path = .error fault' := by
  rw [locate, hwalk]
  split <;> exact ⟨_, rfl⟩

theorem walk_of_locate (h : t.locate path = .ok place) :
    t.walk current path.components = .ok place := by
  unfold locate at h
  split at h
  · cases h
  · cases hwalk : t.walk current path.components with
    | error fault =>
      rw [hwalk] at h
      cases h
    | ok found =>
      rw [hwalk] at h
      simp only [bind, Except.bind] at h
      split at h
      · cases h
      · cases h
        rfl

theorem isPresent_of_error {fault : FileFault} (h : t.locate path = .error fault) :
    t.isPresent path = false := by
  rw [isPresent, h]

theorem read_of_error {fault : FileFault} (h : t.locate path = .error fault) :
    (t.read path).toOption = none := by
  rw [read, h]
  rfl

/-- What a path leads to is read off its place. -/
theorem read_of_locate (h : t.locate path = .ok place) :
    (t.read path).toOption = t.content? place := by
  rw [read, h]
  simp only [bind, Except.bind]
  cases t.content? place <;> rfl

theorem isPresent_of_locate (h : t.locate path = .ok place) :
    t.isPresent path = (t.hasDirectory place || (t.content? place).isSome) := by
  rw [isPresent, h]

theorem locate_of_isEmpty (h : path.text.isEmpty = true) : t.locate path = .error .missing := by
  rw [locate, if_pos h]

/-- An empty path leads nowhere. -/
theorem isEmpty_of_locate (h : t.locate path = .ok place) : path.text.isEmpty = false :=
  Bool.eq_false_iff.2 fun hempty => by
    rw [locate_of_isEmpty hempty] at h
    cases h

/-- A path that says that it is a directory leads to no file. -/
theorem endsAsDirectory_of_locate {bytes : ByteArray} (h : t.locate path = .ok place)
    (hcontent : t.content? place = some bytes) : endsAsDirectory path = false := by
  have hpath := isEmpty_of_locate h
  refine Bool.eq_false_iff.2 fun hends => ?_
  rw [locate_of_ok hpath (walk_of_locate h), hends, hcontent] at h
  cases h

theorem locate_eq_of_walk (hpath : path.text.isEmpty = false) (hends : endsAsDirectory path = false)
    (hwalk : t.walk current path.components = .ok place) : t.locate path = .ok place := by
  rw [locate_of_ok hpath hwalk, hends, Bool.false_and, if_neg Bool.false_ne_true]

/-- A settled path leads to its place or nowhere. -/
theorem Settles.eq_of_walk {place' : List String} (h : t.Settles path place) (hgrows : t.Grows t')
    (hwalk : t'.walk current path.components = .ok place') : place' = place := by
  rcases h.walk_cases hgrows with hok | ⟨⟨fault, herror⟩, -⟩
  · exact Except.ok.inj (hwalk.symm.trans hok)
  · rw [herror] at hwalk
    cases hwalk

/-- A file that is found is found in every tree that has grown. -/
theorem locate_of_grows {bytes : ByteArray} (h : t.locate path = .ok place)
    (hcontent : t.content? place = some bytes) (hgrows : t.Grows t') : t'.locate path = .ok place :=
  locate_eq_of_walk (isEmpty_of_locate h) (endsAsDirectory_of_locate h hcontent)
    (walk_of_grows hgrows (walk_of_locate h))

theorem read_of_content {bytes : ByteArray} (h : t.locate path = .ok place)
    (hcontent : t.content? place = some bytes) : t.read path = .ok bytes := by
  rw [read, h]
  simp only [bind, Except.bind]
  rw [hcontent]
  rfl

/-- Where a settled path leads to a file later and to nothing now, there is no file now. -/
theorem content?_eq_none_of_settles {bytes : ByteArray} (hsettled : t.IsSettled path)
    (hgrows : t.Grows t') (hlocate : t'.locate path = .ok place)
    (hcontent : t'.content? place = some bytes) (habsent : t.isPresent path = false) :
    t.content? place = none := by
  obtain ⟨place', h⟩ := hsettled
  obtain rfl : place = place' := h.eq_of_walk hgrows (walk_of_locate hlocate)
  rcases h.walk_cases (Grows.refl t) with hwalk | ⟨-, -, hnone⟩
  · rw [isPresent_of_locate (locate_eq_of_walk (isEmpty_of_locate hlocate)
      (endsAsDirectory_of_locate hlocate hcontent) hwalk)] at habsent
    have hnone := (Bool.or_eq_false_iff.1 habsent).2
    exact Option.isNone_iff_eq_none.1 (Option.isSome_eq_false_iff.1 hnone)
  · exact hnone

/-- A settled path in a tree and in one that has grown from it: it leads nowhere, or to its place; or
its directories were missing, and so was what is at its place. -/
theorem locate_cases_of_settles (h : t.Settles path place) (hgrows : t.Grows t')
    (hcontent : t'.content? place = t.content? place) :
    (∃ fault fault', t.locate path = .error fault ∧ t'.locate path = .error fault') ∨
      (t.locate path = .ok place ∧ t'.locate path = .ok place) ∨
      ((∃ fault, t.locate path = .error fault) ∧ t'.locate path = .ok place ∧
        t.hasDirectory place = false ∧ t.content? place = none) := by
  by_cases hpath : path.text.isEmpty = true
  · exact .inl ⟨_, _, locate_of_isEmpty hpath, locate_of_isEmpty hpath⟩
  have hpath : path.text.isEmpty = false := Bool.eq_false_iff.2 hpath
  rcases h.walk_cases (Grows.refl t) with hwalk | ⟨⟨_, hwalk⟩, hnodir, hnone⟩
  · have hlocate := locate_of_ok hpath hwalk
    have hlocate' := locate_of_ok hpath (walk_of_grows hgrows hwalk)
    rw [hcontent] at hlocate'
    split at hlocate
    · next hends => exact .inl ⟨_, _, hlocate, hlocate'.trans (if_pos hends)⟩
    · next hends => exact .inr (.inl ⟨hlocate, hlocate'.trans (if_neg hends)⟩)
  · obtain ⟨fault, hlocate⟩ := locate_of_error hwalk
    rcases h.walk_cases hgrows with hwalk' | ⟨⟨_, hwalk'⟩, -⟩
    · have hlocate' := locate_of_ok hpath hwalk'
      rw [hcontent, hnone, Option.isSome_none, Bool.and_false, if_neg Bool.false_ne_true] at hlocate'
      exact .inr (.inr ⟨⟨fault, hlocate⟩, hlocate', hnodir, hnone⟩)
    · obtain ⟨fault', hlocate'⟩ := locate_of_error hwalk'
      exact .inl ⟨fault, fault', hlocate, hlocate'⟩

/-- Something is on a settled path when it is at its place. -/
theorem isPresent_eq_of_settles (h : t.Settles path place) (hgrows : t.Grows t')
    (hdir : t'.hasDirectory place = t.hasDirectory place)
    (hcontent : t'.content? place = t.content? place) : t'.isPresent path = t.isPresent path := by
  rcases locate_cases_of_settles h hgrows hcontent with
    ⟨_, _, hlocate, hlocate'⟩ | ⟨hlocate, hlocate'⟩ | ⟨⟨_, hlocate⟩, hlocate', hnodir, hnone⟩
  · rw [isPresent_of_error hlocate, isPresent_of_error hlocate']
  · rw [isPresent_of_locate hlocate, isPresent_of_locate hlocate', hdir, hcontent]
  · rw [isPresent_of_error hlocate, isPresent_of_locate hlocate', hdir, hcontent, hnodir, hnone]
    rfl

/-- A settled path is read off its place. -/
theorem read_eq_of_settles (h : t.Settles path place) (hgrows : t.Grows t')
    (hcontent : t'.content? place = t.content? place) :
    (t'.read path).toOption = (t.read path).toOption := by
  rcases locate_cases_of_settles h hgrows hcontent with
    ⟨_, _, hlocate, hlocate'⟩ | ⟨hlocate, hlocate'⟩ | ⟨⟨_, hlocate⟩, hlocate', -, hnone⟩
  · rw [read_of_error hlocate, read_of_error hlocate']
  · rw [read_of_locate hlocate, read_of_locate hlocate', hcontent]
  · rw [read_of_error hlocate, read_of_locate hlocate', hcontent, hnone]

/-- The path of a file below a directory goes on from the directory by the names of the file. -/
theorem exists_of_mem_filesBelow {file : FilePath}
    (hnames : ∀ entry ∈ t.files, ∀ name ∈ entry.1, IsEntry name) (h : file ∈ t.filesBelow path) :
    ∃ upper lower, lower ≠ [] ∧ file.components = path.components ++ lower.map .name ∧
      t.Settles file (upper ++ lower) := by
  unfold filesBelow at h
  cases hroot : t.locate path with
  | error fault =>
    rw [hroot] at h
    cases h
  | ok upper =>
    rw [hroot] at h
    obtain ⟨entry, hentry, rfl⟩ := List.mem_map.1 h
    obtain ⟨hmem, hbelow⟩ := List.mem_filter.1 hentry
    obtain ⟨hpre, hne⟩ := Bool.and_eq_true_iff.1 hbelow
    obtain ⟨lower, heq⟩ := List.isPrefixOf_iff_prefix.1 hpre
    have hdrop : entry.1.drop upper.length = lower := by
      rw [← heq, List.drop_left]
    have hlower : ∀ name ∈ lower, IsEntry name := fun name hname =>
      hnames entry hmem name (heq ▸ List.mem_append_right upper hname)
    rw [hdrop]
    refine ⟨upper, lower, ?_, components_below path hlower,
      (settles_of_walk (walk_of_locate hroot)).below hlower⟩
    rintro rfl
    rw [List.append_nil] at heq
    exact absurd heq (by simpa using hne)

end VectorIcon.FileTree
