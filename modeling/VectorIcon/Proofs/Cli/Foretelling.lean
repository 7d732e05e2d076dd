import VectorIcon.Proofs.Cli.Progress

/-!
# How the steps of a dry run foretell a run

A dry run has the plan of the run, but it does not see the code that the run has generated before. It tells
of a target once for each drawing that has it, where the run, without leave to replace files, generates code
once and then finds it there (`Foretells`). Apart from this each step of a dry run foretells the same step of
the run (`foretells_step`), and so do all steps together (`foretellsAll_outcomes`).
-/

namespace VectorIcon.Cli

open BatchPlan FilePath Name

/-! ## Fates -/

/-- What a run tells about a drawing, whether it is a dry run or not. -/
inductive Fate
  | failed
  | skipped (path : FilePath)
  | created (path : FilePath)

/-- What is told of an outcome. -/
def Outcome.fate : Outcome → Fate
  | .failed _ | .unwritten .. => .failed
  | .present path => .skipped path
  | .planned path | .generated path _ => .created path

/-- The targets that are created, in order. -/
def createdPaths : List Fate → List FilePath
  | [] => []
  | .created path :: fates => path :: createdPaths fates
  | _ :: fates => createdPaths fates

/-- The targets that are passed over, in order. -/
def skippedPaths : List Fate → List FilePath
  | [] => []
  | .skipped path :: fates => path :: skippedPaths fates
  | _ :: fates => skippedPaths fates

/-- How many drawings fail. -/
def failures : List Fate → Nat
  | [] => 0
  | .failed :: fates => failures fates + 1
  | _ :: fates => failures fates

/-- What is told of some drawings. -/
def Record.fates (r : Record) : List Fate :=
  r.map (·.2.fate)

/-- The summary is told by the fates. -/
theorem summary_eq_of_fates (r : Record) :
    r.summary = ⟨(createdPaths r.fates).length, (skippedPaths r.fates).length, failures r.fates⟩ := by
  rw [Record.summary_eq]
  induction r with
  | nil => rfl
  | cons entry rest ih =>
    obtain ⟨file, outcome⟩ := entry
    obtain ⟨hcreated, hskipped, hfailed⟩ := Summary.mk.inj ih
    rw [List.countP_cons, List.countP_cons, List.countP_cons, hcreated, hskipped, hfailed]
    cases outcome <;> rfl

/-- The fate of a drawing in a dry run and in the run, where code was generated for some targets before, and
the target that code is now generated for. Without leave to replace files, a target of before is told to be
created and is passed over. -/
inductive Foretells (overwrite : Bool) (seen : List FilePath) : Fate → Fate → Option FilePath → Prop
  | failed : Foretells overwrite seen .failed .failed none
  | skipped (path : FilePath) : Foretells overwrite seen (.skipped path) (.skipped path) none
  | created (path : FilePath) (fresh : overwrite = true ∨ path ∉ seen) :
    Foretells overwrite seen (.created path) (.created path) (some path)
  | repeated (path : FilePath) (kept : overwrite = false) (old : path ∈ seen) :
    Foretells overwrite seen (.created path) (.skipped path) none

/-- The fates of some drawings in a dry run and in the run. -/
inductive ForetellsAll (overwrite : Bool) : List FilePath → List Fate → List Fate → Prop
  | nil (seen : List FilePath) : ForetellsAll overwrite seen [] []
  | cons {seen : List FilePath} {dry real : Fate} {target : Option FilePath} {dries reals : List Fate}
      (first : Foretells overwrite seen dry real target)
      (rest : ForetellsAll overwrite (target.toList ++ seen) dries reals) :
    ForetellsAll overwrite seen (dry :: dries) (real :: reals)

namespace ForetellsAll

variable {overwrite : Bool} {seen : List FilePath} {dry real : List Fate}

theorem failures_eq (h : ForetellsAll overwrite seen dry real) : failures real = failures dry := by
  induction h with
  | nil => rfl
  | cons first _ ih =>
    cases first with
    | failed => exact congrArg (· + 1) ih
    | skipped => exact ih
    | created => exact ih
    | repeated => exact ih

/-- With leave to replace files, or when no target is told twice, a run does what its dry run tells. -/
theorem eq_of_nodup (h : ForetellsAll overwrite seen dry real)
    (hdistinct : overwrite = true ∨
      (createdPaths dry).Nodup ∧ ∀ path ∈ createdPaths dry, path ∉ seen) : real = dry := by
  induction h with
  | nil => rfl
  | cons first _ ih =>
    cases first with
    | failed => exact congrArg (_ :: ·) (ih hdistinct)
    | skipped => exact congrArg (_ :: ·) (ih hdistinct)
    | created path =>
      refine congrArg (_ :: ·) (ih (hdistinct.imp_right fun ⟨hnodup, hnot⟩ => ?_))
      obtain ⟨hhead, htail⟩ := List.nodup_cons.1 hnodup
      refine ⟨htail, fun other hother hmem => ?_⟩
      rcases List.mem_cons.1 hmem with rfl | hseen
      · exact hhead hother
      · exact hnot other (List.mem_cons_of_mem _ hother) hseen
    | repeated path kept old =>
      rcases hdistinct with hoverwrite | ⟨-, hnot⟩
      · rw [kept] at hoverwrite
        cases hoverwrite
      · exact absurd old (hnot path (List.mem_cons_self ..))

/-- Without leave to replace files, a run creates each target once. -/
theorem createdPaths_eq (h : ForetellsAll false seen dry real) :
    createdPaths real = ((createdPaths dry).filter (· ∉ seen)).eraseDups := by
  induction h with
  | nil => rfl
  | @cons seen _ _ _ dries _ first _ ih =>
    cases first with
    | failed => exact ih
    | skipped => exact ih
    | created path fresh =>
      have hnew : path ∉ seen := fresh.resolve_left Bool.false_ne_true
      have hrest : ((createdPaths dries).filter (· ∉ seen)).filter (fun other => !(other == path)) =
          (createdPaths dries).filter (· ∉ path :: seen) := by
        rw [List.filter_filter]
        refine List.filter_congr fun other _ => ?_
        by_cases heq : other = path <;> simp [heq]
      rw [createdPaths, createdPaths, List.filter_cons_of_pos (by simpa using hnew),
        List.eraseDups_cons, hrest]
      exact congrArg (path :: ·) ih
    | repeated path _ old =>
      have hrest : (createdPaths (.created path :: dries)).filter (· ∉ seen) =
          (createdPaths dries).filter (· ∉ seen) := List.filter_cons_of_neg (by simpa using old)
      rw [hrest]
      exact ih

/-- What a dry run has told when it has foretold the run. -/
theorem told {dry real : Record} (h : ForetellsAll overwrite [] dry.fates real.fates) :
    createdPaths real.fates = (if overwrite then createdPaths dry.fates
      else (createdPaths dry.fates).eraseDups) ∧
    real.summary.failed = dry.summary.failed ∧
    (overwrite = true ∨ (createdPaths dry.fates).Nodup →
      createdPaths real.fates = createdPaths dry.fates ∧
      skippedPaths real.fates = skippedPaths dry.fates ∧ real.summary = dry.summary) := by
  have hsame : overwrite = true ∨ (createdPaths dry.fates).Nodup → real.fates = dry.fates :=
    fun hdistinct => h.eq_of_nodup
      (hdistinct.imp_right fun hnodup => ⟨hnodup, fun _ _ => List.not_mem_nil⟩)
  refine ⟨?_, ?_, fun hdistinct => ?_⟩
  · cases overwrite with
    | true => exact congrArg createdPaths (hsame (.inl rfl))
    | false =>
      have hcreated := h.createdPaths_eq
      rw [List.filter_eq_self.2 fun _ _ => decide_eq_true List.not_mem_nil] at hcreated
      exact hcreated
  · rw [summary_eq_of_fates, summary_eq_of_fates]
    exact h.failures_eq
  · rw [summary_eq_of_fates real, summary_eq_of_fates dry, hsame hdistinct]
    exact ⟨rfl, rfl, rfl⟩

end ForetellsAll

/-! ## The two runs -/

variable {current : List String} {s : Session current} {start t final : FileTree current}
variable {plan : BatchPlan} {seen targets files : List FilePath} {file path : FilePath}

/-- The plan of a dry run. -/
def BatchPlan.foretelling (plan : BatchPlan) : BatchPlan :=
  { plan with dryRun := true }

/-- A dry run tells that a target is passed over, or that it is created. -/
theorem step_foretelling {c : Conversion} (hc : plan.conversion t file = .ok c) :
    plan.foretelling.step t file =
      (if (t.isPresent (plan.targetOf c) && !plan.overwrite) = true then .present (plan.targetOf c)
      else .planned (plan.targetOf c), t) := by
  have hc' : plan.foretelling.conversion t file = .ok c := hc
  rw [step, hc']
  rcases settle_cases plan.foretelling t c with ⟨hpresent, hoverwrite, hsettle⟩ |
    ⟨hfree, ⟨-, hsettle⟩ | ⟨hdry, -⟩⟩
  · have hskip : (t.isPresent (plan.targetOf c) && !plan.overwrite) = true :=
      Bool.and_eq_true_iff.2 ⟨hpresent, congrArg (! ·) hoverwrite⟩
    rw [if_pos hskip]
    exact hsettle
  · have hskip : ¬ (t.isPresent (plan.targetOf c) && !plan.overwrite) = true :=
      Bool.eq_false_iff.1 hfree
    rw [if_neg hskip]
    exact hsettle
  · cases hdry

/-- A step of a dry run foretells the same step of the run. -/
theorem foretells_step (hdry : plan.dryRun = false)
    (hsettled : plan.overwrite = false → start.IsSettled plan.outDir)
    (h : Progress plan start t seen) (hfinal : t.Grows final)
    (hfile : IsApart plan start final seen file)
    (htemplates : ∀ template ∈ templatePaths plan.config, IsApart plan start final seen template)
    (hwritten : ∀ path fault, (plan.step t file).1 ≠ .unwritten path fault) :
    Foretells plan.overwrite seen (plan.foretelling.step start file).1.fate
      (plan.step t file).1.fate (plan.step t file).1.generated? := by
  have hconversion := h.toOption_conversion hfinal hfile htemplates
  rcases step_cases plan t file with ⟨error, herror, hstep⟩ | ⟨c, hc, hstep⟩
  · rw [hstep]
    rcases step_cases plan.foretelling start file with ⟨error', -, hstep'⟩ | ⟨c, hc, -⟩
    · rw [hstep']
      exact .failed
    · have hc' : plan.conversion start file = .ok c := hc
      rw [herror, hc'] at hconversion
      cases hconversion
  have hstart : plan.conversion start file = .ok c := by
    rw [hc] at hconversion
    exact eq_ok_of_toOption hconversion.symm
  rw [hstep] at hwritten ⊢
  rw [step_foretelling hstart]
  have htarget := targetOf_of_conversion hc
  rcases settle_cases plan t c with ⟨hpresent, hoverwrite, hsettle⟩ |
    ⟨hfree, ⟨hdry', -⟩ | ⟨-, ⟨fault, -, hsettle⟩ | ⟨-, hsettle⟩⟩⟩
  · rw [hsettle]
    by_cases hmem : plan.targetOf c ∈ seen
    · rw [h.absent hoverwrite _ hmem, Bool.false_and, if_neg Bool.false_ne_true]
      exact .repeated _ hoverwrite hmem
    · rw [htarget] at hmem hpresent ⊢
      rw [← h.isPresent_of_not_mem (hsettled hoverwrite) hmem, hpresent, hoverwrite, Bool.not_false,
        Bool.and_self, if_pos rfl]
      exact .skipped _
  · rw [hdry] at hdry'
    cases hdry'
  · rw [hsettle] at hwritten
    exact absurd rfl (hwritten _ _)
  · rw [hsettle]
    cases hoverwrite : plan.overwrite with
    | true =>
      rw [Bool.not_true, Bool.and_false, if_neg Bool.false_ne_true]
      exact .created _ (.inl rfl)
    | false =>
      rw [hoverwrite, Bool.not_false, Bool.and_true] at hfree
      have hmem : plan.targetOf c ∉ seen := fun hmem => by
        rw [h.isPresent_of_mem hmem] at hfree
        cases hfree
      have habsent : start.isPresent (plan.targetOf c) = false := by
        rw [htarget] at hmem hfree ⊢
        rw [← h.isPresent_of_not_mem (hsettled hoverwrite) hmem, hfree]
      rw [habsent, Bool.false_and, if_neg Bool.false_ne_true]
      exact .created _ (.inr hmem)

/-- A dry run foretells the run, from any point on. -/
theorem foretellsAll_record (hdry : plan.dryRun = false)
    (hsettled : plan.overwrite = false → start.IsSettled plan.outDir)
    (h : Progress plan start t seen) (hfinal : plan.treeAfter t files = final)
    (hseen : ∀ path ∈ seen, path ∈ targets)
    (htargets : ∀ entry ∈ plan.record t files, ∀ path, entry.2.generated? = some path →
      path ∈ targets)
    (hfiles : ∀ file ∈ files, IsApart plan start final targets file)
    (htemplates : ∀ template ∈ templatePaths plan.config,
      IsApart plan start final targets template)
    (hwritten : ∀ entry ∈ plan.record t files, ∀ path fault, entry.2 ≠ .unwritten path fault) :
    ForetellsAll plan.overwrite seen (plan.foretelling.record start files).fates
      (plan.record t files).fates := by
  induction files generalizing t seen with
  | nil => exact .nil seen
  | cons file rest ih =>
    have hgrows : t.Grows final := hfinal ▸ grows_treeAfter plan t (file :: rest)
    have hfirst := foretells_step hdry hsettled h hgrows
      (IsApart.mono (hfiles file (List.mem_cons_self ..)) hseen)
      (fun template htemplate => IsApart.mono (htemplates template htemplate) hseen)
      (hwritten (file, _) (List.mem_cons_self ..))
    have hstart : (plan.foretelling.step start file).2 = start := step_of_dryRun rfl
    have hrest := ih (h.step hsettled file) hfinal (fun path hpath => ?_)
      (fun entry hentry => htargets entry (List.mem_cons_of_mem _ hentry))
      (fun file' hfile' => hfiles file' (List.mem_cons_of_mem _ hfile'))
      (fun entry hentry => hwritten entry (List.mem_cons_of_mem _ hentry))
    · rw [record, record, hstart]
      exact .cons hfirst hrest
    · rcases List.mem_append.1 hpath with hnew | hold
      · exact htargets (file, _) (List.mem_cons_self ..) path (Option.mem_toList.1 hnew)
      · exact hseen path hold

/-! ## Drawings -/

/-- A file of code is no drawing. -/
theorem isDrawing_of_codeName {own : String} (hown : IsWord Text.isAlphanumeric own)
    (h : file.components.getLast? = some (.name (codeName own))) : isDrawing file = false := by
  have hextension : file.extension? = some (String.ofList ['k', 't']) := by
    rw [extension?, fileName?, h]
    show (cutExtension (codeName own).toList).2.map String.ofList = _
    rw [cutExtension_codeName hown]
    rfl
  rw [isDrawing, hextension]
  decide

/-- A drawing has a place of its own. -/
theorem isApart_of_mem_drawings (hnames : ∀ entry ∈ start.files, ∀ name ∈ entry.1, IsEntry name)
    (hfile : file ∈ plan.drawings start) : IsApart plan start final targets file := by
  obtain ⟨hbelow, hdrawing⟩ := mem_drawings_iff.1 hfile
  obtain ⟨upper, lower, hne, hsteps, hplace⟩ := FileTree.exists_of_mem_filesBelow hnames hbelow
  refine ⟨upper ++ lower, hplace, fun text _ hlocate => ?_⟩
  obtain ⟨base, heq⟩ := exists_of_locate_targetFor hlocate
  have hlast : lower.getLast? = some (codeName (Name.ofText text).ownPascal) := by
    have hends := congrArg List.getLast? heq
    rwa [namesFor, targetNames, ← List.append_assoc, List.getLast?_concat,
      List.getLast?_append_of_ne_nil _ hne] at hends
  have hcode : file.components.getLast? =
      some (.name (codeName (Name.ofText text).ownPascal)) := by
    rw [hsteps, List.getLast?_append_of_ne_nil _ (by simpa using hne), List.getLast?_map, hlast]
    rfl
  rw [isDrawing_of_codeName (isWord_ownPascal text '.') hcode] at hdrawing
  cases hdrawing

/-! ## All drawings -/

/-- What a dry run relies on: the files have names that entries of directories can have; the way to the
output directory, unless files may be replaced, and those to the template files go up only from directories
that are there; no code is generated at the place of a template file, and none fails to be written. -/
structure IsForeseeable (s : Session current) (plan : BatchPlan) : Prop where
  names : ∀ entry ∈ s.tree.files, ∀ name ∈ entry.1, IsEntry name
  outDir : plan.overwrite = false → s.tree.IsSettled plan.outDir
  templates : ∀ template ∈ templatePaths plan.config, ∃ place, s.tree.Settles template place ∧
    ∀ entry ∈ plan.outcomes s.tree, ∀ path, entry.2.generated? = some path →
      (plan.treeAfter s.tree (plan.drawings s.tree)).locate path ≠ .ok place
  written : ∀ entry ∈ plan.outcomes s.tree, ∀ path fault, entry.2 ≠ .unwritten path fault

theorem foretellsAll_outcomes (hdry : plan.dryRun = false) (h : IsForeseeable s plan) :
    ForetellsAll plan.overwrite [] (plan.foretelling.outcomes s.tree).fates
      (plan.outcomes s.tree).fates := by
  have htargets : ∀ entry ∈ plan.outcomes s.tree, ∀ path, entry.2.generated? = some path →
      path ∈ (plan.outcomes s.tree).filterMap (·.2.generated?) :=
    fun entry hentry path hpath => List.mem_filterMap.2 ⟨entry, hentry, hpath⟩
  refine foretellsAll_record hdry h.outDir (Progress.refl plan s.tree) rfl
    (fun _ hpath => nomatch hpath) htargets
    (fun file hfile => isApart_of_mem_drawings h.names hfile) (fun template htemplate => ?_) h.written
  obtain ⟨place, hplace, hnot⟩ := h.templates template htemplate
  refine ⟨place, hplace, fun text htext => ?_⟩
  obtain ⟨entry, hentry, hpath⟩ := List.mem_filterMap.1 htext
  exact hnot entry hentry _ hpath

end VectorIcon.Cli
