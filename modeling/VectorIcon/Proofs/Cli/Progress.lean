import VectorIcon.Proofs.Cli.Reading

/-!
# The tree on the way of a run

In the middle of a run the tree differs from the one at the start by the code that was generated so far, and
by the directories that this code is in (`Progress`). So everything but this code is read as at the start
(`toOption_conversion`). If the way to the output directory goes up only from directories that are there, a
target is found when code was generated for it, and else when it was found at the start
(`isPresent_of_mem`, `isPresent_of_not_mem`).
-/

namespace VectorIcon.Cli.BatchPlan

open FilePath Name

variable {current : List String} {start t final : FileTree current} {plan : BatchPlan}
variable {base place names : List String}
variable {seen targets : List FilePath} {text : String} {path file : FilePath}

/-! ## Targets -/

/-- The target of an icon of a name. -/
def targetFor (plan : BatchPlan) (text : String) : FilePath :=
  target plan.outDir plan.folders (.ofText text)

/-- The names of the target of an icon of a name, below the output directory. -/
def namesFor (plan : BatchPlan) (text : String) : List String :=
  targetNames plan.folders (.ofText text)

theorem targetFor_eq (plan : BatchPlan) (text : String) :
    plan.targetFor text = (plan.namesFor text).foldl join plan.outDir :=
  target_eq ..

theorem targetOf_of_conversion {c : Conversion} (h : plan.conversion t file = .ok c) :
    plan.targetOf c = plan.targetFor (iconName plan.root file) := by
  rw [targetOf, name_of_conversion h, targetFor]

theorem settles_targetFor (hbase : start.Settles plan.outDir base) :
    start.Settles (plan.targetFor text) (base ++ plan.namesFor text) := by
  rw [targetFor_eq]
  exact hbase.below fun _ => isEntry_of_mem_targetNames

theorem exists_of_locate_targetFor (h : t.locate (plan.targetFor text) = .ok place) :
    ∃ base, place = base ++ plan.namesFor text := by
  have hwalk := FileTree.walk_of_locate h
  rw [targetFor, components_target] at hwalk
  obtain ⟨base, -, hplace⟩ := FileTree.exists_of_walk_append hwalk
  exact ⟨base, hplace⟩

/-- No place of code is a directory that code is in. -/
theorem not_prefix_of_namesFor {folders : List String}
    (hfolders : ∀ folder ∈ folders, IsWord isSmall folder) :
    ¬ base ++ plan.namesFor text <+: base ++ folders := by
  intro hpre
  have hnames : plan.namesFor text <+: folders := (List.prefix_append_right_inj base).1 hpre
  have hmem : codeName (Name.ofText text).ownPascal ∈ plan.namesFor text :=
    List.mem_append_right _ (List.mem_singleton_self _)
  exact codeName_ne (hfolders _ (hnames.subset hmem)) _ rfl

/-! ## Progress -/

/-- A directory is there, or is one that code below some place is in. -/
def IsAbove (start : FileTree current) (base names : List String) : Prop :=
  start.hasDirectory names = true ∨
    ∃ folders, (∀ folder ∈ folders, IsWord isSmall folder) ∧ names <+: base ++ folders

/-- A tree in the middle of a run, after code was generated for the targets that were seen. -/
structure Progress (plan : BatchPlan) (start t : FileTree current) (seen : List FilePath) : Prop where
  grows : start.Grows t
  directories : ∀ base, start.Settles plan.outDir base → ∀ names, t.hasDirectory names = true →
    IsAbove start base names
  contents : ∀ names, t.content? names = start.content? names ∨
    ∃ text, plan.targetFor text ∈ seen ∧ t.locate (plan.targetFor text) = .ok names
  found : ∀ path ∈ seen, ∃ text place bytes, path = plan.targetFor text ∧
    t.locate path = .ok place ∧ t.content? place = some bytes
  absent : plan.overwrite = false → ∀ path ∈ seen, start.isPresent path = false

namespace Progress

theorem refl (plan : BatchPlan) (start : FileTree current) : Progress plan start start [] where
  grows := .refl start
  directories _ _ _ h := .inl h
  contents _ := .inl rfl
  found _ h := nomatch h
  absent _ _ h := nomatch h

/-- A target that was seen is there. -/
theorem isPresent_of_mem (h : Progress plan start t seen) (hmem : path ∈ seen) :
    t.isPresent path = true := by
  obtain ⟨text, place, bytes, -, hlocate, hcontent⟩ := h.found path hmem
  rw [FileTree.isPresent_of_locate hlocate, hcontent, Option.isSome_some, Bool.or_true]

/-- The place of a target that was not seen holds what it held at the start. -/
theorem content?_of_not_mem (h : Progress plan start t seen) (hbase : start.Settles plan.outDir base)
    (hnot : plan.targetFor text ∉ seen) :
    t.content? (base ++ plan.namesFor text) = start.content? (base ++ plan.namesFor text) := by
  rcases h.contents (base ++ plan.namesFor text) with hsame | ⟨text', hmem, hlocate⟩
  · exact hsame
  · have heq : base ++ plan.namesFor text = base ++ plan.namesFor text' :=
      (settles_targetFor hbase).eq_of_walk h.grows (FileTree.walk_of_locate hlocate)
    rw [targetFor_eq, ← List.append_cancel_left heq, ← targetFor_eq] at hmem
    exact absurd hmem hnot

theorem hasDirectory_eq (h : Progress plan start t seen) (hbase : start.Settles plan.outDir base)
    (text : String) : t.hasDirectory (base ++ plan.namesFor text) =
      start.hasDirectory (base ++ plan.namesFor text) := by
  refine Bool.eq_iff_iff.2 ⟨fun hdir => ?_, h.grows _⟩
  rcases h.directories base hbase _ hdir with hstart | ⟨folders, hfolders, hpre⟩
  · exact hstart
  · exact absurd hpre (not_prefix_of_namesFor hfolders)

/-- A target that was not seen is there when it was there at the start. -/
theorem isPresent_of_not_mem (h : Progress plan start t seen)
    (hbase : start.IsSettled plan.outDir) (hnot : plan.targetFor text ∉ seen) :
    t.isPresent (plan.targetFor text) = start.isPresent (plan.targetFor text) := by
  obtain ⟨base, hbase⟩ := hbase
  exact FileTree.isPresent_eq_of_settles (settles_targetFor hbase) h.grows
    (h.hasDirectory_eq hbase text) (h.content?_of_not_mem hbase hnot)

/-! ## Steps -/

theorem found_of_grows {t' : FileTree current} (h : Progress plan start t seen) (hgrows : t.Grows t')
    (hkept : ∀ names bytes, t.content? names = some bytes → ∃ bytes', t'.content? names = some bytes')
    (hmem : path ∈ seen) : ∃ text place bytes, path = plan.targetFor text ∧
      t'.locate path = .ok place ∧ t'.content? place = some bytes := by
  obtain ⟨text, place, bytes, hpath, hlocate, hcontent⟩ := h.found path hmem
  obtain ⟨bytes', hcontent'⟩ := hkept _ _ hcontent
  exact ⟨text, place, bytes', hpath, FileTree.locate_of_grows hlocate hcontent hgrows, hcontent'⟩

theorem contents_of_grows {t' : FileTree current} (h : Progress plan start t seen) (hgrows : t.Grows t')
    (names : List String) : t.content? names = start.content? names ∨
      ∃ text, plan.targetFor text ∈ seen ∧ t'.locate (plan.targetFor text) = .ok names := by
  refine (h.contents names).imp_right fun ⟨text, hmem, hlocate⟩ => ⟨text, hmem, ?_⟩
  obtain ⟨-, place, bytes, -, hplace, hcontent⟩ := h.found _ hmem
  obtain rfl : names = place := Except.ok.inj (hlocate.symm.trans hplace)
  exact FileTree.locate_of_grows hlocate hcontent hgrows

theorem directories_save (h : Progress plan start t seen) (hbase : start.Settles plan.outDir base)
    (text : String) (bytes : ByteArray)
    (hdir : (t.save (plan.targetFor text) bytes).2.hasDirectory names = true) :
    IsAbove start base names := by
  have hbase' := hbase
  obtain ⟨upper, top, lower, hsteps, hupper, rfl⟩ := hbase
  have hcomponents : (plan.targetFor text).components = upper ++
      (lower ++ targetFolders plan.folders (.ofText text) ++
        [codeName (Name.ofText text).ownPascal]).map .name := by
    rw [targetFor, components_target, hsteps, targetNames]
    simp only [List.map_append, List.append_assoc]
  rcases FileTree.hasDirectory_save hcomponents (FileTree.walk_of_grows h.grows hupper) hdir with
    hold | hpre
  · exact h.directories _ hbase' names hold
  · rw [← List.append_assoc] at hpre
    exact .inr ⟨_, fun _ => isWord_of_mem_targetFolders, hpre⟩

/-- A tree in the middle of a run stays one when code is saved, whether this succeeds or not. -/
theorem save (h : Progress plan start t seen)
    (hsettled : plan.overwrite = false → start.IsSettled plan.outDir) (text : String)
    (bytes : ByteArray) (hfree : (t.isPresent (plan.targetFor text) && !plan.overwrite) = false) :
    ((∃ fault, (t.save (plan.targetFor text) bytes).1 = .error fault) ∧
        Progress plan start (t.save (plan.targetFor text) bytes).2 seen) ∨
      (t.save (plan.targetFor text) bytes).1 = .ok () ∧
        Progress plan start (t.save (plan.targetFor text) bytes).2 (plan.targetFor text :: seen) := by
  have hgrows := FileTree.grows_save t (plan.targetFor text) bytes
  rcases FileTree.content?_save t (plan.targetFor text) bytes with
    ⟨hfault, hsame⟩ | ⟨hok, place, hplace, hcontent⟩
  · refine .inl ⟨hfault, h.grows.trans hgrows, fun _ hbase _ => h.directories_save hbase text bytes,
      fun names => ?_, fun path => h.found_of_grows hgrows fun names bytes hbytes => ?_, h.absent⟩
    · rw [hsame]
      exact h.contents_of_grows hgrows names
    · exact ⟨bytes, (hsame names).trans hbytes⟩
  refine .inr ⟨hok, h.grows.trans hgrows, fun _ hbase _ => h.directories_save hbase text bytes,
    fun names => ?_, fun path hpath => ?_, fun hoverwrite path hpath => ?_⟩
  · rw [hcontent]
    by_cases heq : names = place
    · subst heq
      exact .inr ⟨text, List.mem_cons_self .., hplace⟩
    · rw [if_neg heq]
      exact (h.contents_of_grows hgrows names).imp_right fun ⟨text', hmem, hlocate⟩ =>
        ⟨text', List.mem_cons_of_mem _ hmem, hlocate⟩
  · rcases List.mem_cons.1 hpath with rfl | hmem
    · exact ⟨text, place, bytes, rfl, hplace, (hcontent _).trans (if_pos rfl)⟩
    · refine h.found_of_grows hgrows (fun names old hold => ?_) hmem
      rw [hcontent]
      by_cases heq : names = place
      · exact ⟨bytes, if_pos heq⟩
      · exact ⟨old, (if_neg heq).trans hold⟩
  · rcases List.mem_cons.1 hpath with rfl | hmem
    · rw [hoverwrite, Bool.not_false, Bool.and_true] at hfree
      have hnot : plan.targetFor text ∉ seen := fun hmem => by
        rw [h.isPresent_of_mem hmem] at hfree
        cases hfree
      rw [← h.isPresent_of_not_mem (hsettled hoverwrite) hnot, hfree]
    · exact h.absent hoverwrite path hmem

/-- A tree in the middle of a run stays one by a step. -/
theorem step (h : Progress plan start t seen)
    (hsettled : plan.overwrite = false → start.IsSettled plan.outDir) (file : FilePath) :
    Progress plan start (plan.step t file).2
      ((plan.step t file).1.generated?.toList ++ seen) := by
  rcases step_cases plan t file with ⟨error, -, hstep⟩ | ⟨c, hc, hstep⟩
  · rw [hstep]
    exact h
  rw [hstep]
  rcases settle_cases plan t c with ⟨-, -, hsettle⟩ |
    ⟨hfree, ⟨-, hsettle⟩ | ⟨-, ⟨fault, hsave, hsettle⟩ | ⟨hsave, hsettle⟩⟩⟩
  · rw [hsettle]
    exact h
  · rw [hsettle]
    exact h
  · rw [hsettle]
    dsimp only
    rw [targetOf_of_conversion hc] at hfree hsave ⊢
    rcases h.save hsettled _ (bytesOf c) hfree with ⟨-, hnext⟩ | ⟨hok, -⟩
    · exact hnext
    · rw [hok] at hsave
      cases hsave
  · rw [hsettle]
    dsimp only
    rw [targetOf_of_conversion hc] at hfree hsave ⊢
    rcases h.save hsettled _ (bytesOf c) hfree with ⟨⟨fault, herror⟩, -⟩ | ⟨-, hnext⟩
    · rw [herror] at hsave
      cases hsave
    · exact hnext

end Progress

/-! ## What is read on the way -/

/-- A path has a place of its own: none of some targets leads there in the end. -/
def IsApart (plan : BatchPlan) (start final : FileTree current) (targets : List FilePath) (path : FilePath) :
    Prop :=
  ∃ place, start.Settles path place ∧
    ∀ text, plan.targetFor text ∈ targets → final.locate (plan.targetFor text) ≠ .ok place

theorem IsApart.mono (h : IsApart plan start final targets path)
    (hseen : ∀ target ∈ seen, target ∈ targets) : IsApart plan start final seen path := by
  obtain ⟨place, hplace, hnot⟩ := h
  exact ⟨place, hplace, fun text hmem => hnot text (hseen _ hmem)⟩

namespace Progress

theorem toOption_read (h : Progress plan start t seen) (hfinal : t.Grows final)
    (hapart : IsApart plan start final seen path) :
    (t.read path).toOption = (start.read path).toOption := by
  obtain ⟨place, hplace, hnot⟩ := hapart
  refine FileTree.read_eq_of_settles hplace h.grows ?_
  rcases h.contents_of_grows hfinal place with hsame | ⟨text, hmem, hlocate⟩
  · exact hsame
  · exact absurd hlocate (hnot text hmem)

/-- A drawing is converted on the way as it is at the start. -/
theorem toOption_conversion (h : Progress plan start t seen) (hfinal : t.Grows final)
    (hfile : IsApart plan start final seen file)
    (htemplates : ∀ template ∈ templatePaths plan.config,
      IsApart plan start final seen template) :
    (plan.conversion t file).toOption = (plan.conversion start file).toOption :=
  Cli.toOption_conversion (toOption_text (h.toOption_read hfinal hfile)) fun template htemplate =>
    toOption_text (h.toOption_read hfinal (htemplates template htemplate))

end Progress

end VectorIcon.Cli.BatchPlan
