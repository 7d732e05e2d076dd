import VectorIcon.Proofs.Cli.Run

/-!
# What a run over a directory leaves alone

A run counts each of its drawings once, and a drawing that is not converted is as good as absent. Files are
made and changed only below the output directory, under names that are words; and without leave to replace
files, those that were there stay as they were, if the way to the output directory goes up only from
directories that are there (`run_accounts`).
-/

namespace VectorIcon.Cli

open BatchPlan FilePath Name

variable {current : List String} {s : Session current} {t : FileTree current}
variable {arguments : List String} {plan : BatchPlan} {files : List FilePath} {file : FilePath} {names : List String}

/-! ## Accounts -/

theorem length_record (plan : BatchPlan) (t : FileTree current) (files : List FilePath) :
    (plan.record t files).length = files.length := by
  induction files generalizing t with
  | nil => rfl
  | cons file rest ih => exact congrArg (· + 1) (ih _)

/-- A drawing counts once. -/
theorem summary_total (r : Record) :
    r.summary.processed + r.summary.skipped + r.summary.failed = r.length := by
  rw [Record.summary_eq]
  dsimp only
  induction r with
  | nil => rfl
  | cons entry rest ih =>
    obtain ⟨file, outcome⟩ := entry
    rw [List.countP_cons, List.countP_cons, List.countP_cons, List.length_cons, ← ih]
    cases outcome <;> simp only [Outcome.isProcessed, Outcome.isSkipped, Outcome.isFailed,
      Bool.false_eq_true, if_true, if_false] <;> omega

theorem exitCode_eq_one_iff (r : Record) : exitCode r = 1 ↔ 0 < r.summary.failed := by
  unfold exitCode
  split
  · next h => exact ⟨fun _ => h, fun _ => rfl⟩
  · next h => exact ⟨fun heq => absurd heq (by decide), fun hpos => absurd hpos h⟩

theorem exitCode_eq_zero_iff (r : Record) : exitCode r = 0 ↔ r.summary.failed = 0 := by
  unfold exitCode
  split
  · next h => exact ⟨fun heq => absurd heq (by decide), fun hzero => absurd hzero (Nat.ne_of_gt h)⟩
  · next h => exact ⟨fun _ => Nat.eq_zero_of_not_pos h, fun _ => rfl⟩

/-- A drawing that is not converted changes neither the tree nor what becomes of the others. -/
theorem record_of_failed {before after : List FilePath} {error : Error}
    (h : plan.conversion (plan.treeAfter t before) file = .error error) :
    plan.record t (before ++ file :: after) =
        plan.record t before ++ (file, .failed error) :: plan.record (plan.treeAfter t before) after ∧
      plan.record t (before ++ after) =
        plan.record t before ++ plan.record (plan.treeAfter t before) after ∧
      plan.treeAfter t (before ++ file :: after) = plan.treeAfter t (before ++ after) := by
  have hstep : plan.step (plan.treeAfter t before) file =
      (.failed error, plan.treeAfter t before) := by
    rw [step, h]
  refine ⟨?_, record_append, ?_⟩
  · rw [record_append, record, hstep]
  · rw [treeAfter_append, treeAfter_append]
    show plan.treeAfter (plan.step (plan.treeAfter t before) file).2 after = _
    rw [hstep]

/-! ## Changed places -/

/-- The names are those of a file below the output directory whose directories are small words and whose
own name is a word before `.kt`. -/
def IsCode (t : FileTree current) (outDir : FilePath) (names : List String) : Prop :=
  ∃ base folders own, t.walk current outDir.components = .ok base ∧
    t.locate ((folders ++ [own ++ ".kt"]).foldl join outDir) = .ok names ∧
    names = base ++ folders ++ [own ++ ".kt"] ∧
    (∀ folder ∈ folders, IsWord isSmall folder) ∧ IsWord Text.isAlphanumeric own

theorem IsCode.of_grows {t' : FileTree current} {outDir : FilePath} {bytes : ByteArray}
    (h : IsCode t outDir names) (hcontent : t.content? names = some bytes) (hgrows : t.Grows t') :
    IsCode t' outDir names := by
  obtain ⟨base, folders, own, hbase, hnames, heq, hfolders, hown⟩ := h
  exact ⟨base, folders, own, FileTree.walk_of_grows hgrows hbase,
    FileTree.locate_of_grows hnames hcontent hgrows, heq, hfolders, hown⟩

/-- What a step changes is code below the output directory. -/
theorem isCode_of_step (h : (plan.step t file).2.content? names ≠ t.content? names) :
    IsCode (plan.step t file).2 plan.outDir names ∧
      ∃ bytes, (plan.step t file).2.content? names = some bytes := by
  rcases content?_step plan t file with ⟨-, hsame⟩ | ⟨c, place, hc, -, -, -, hplace, hcontent⟩
  · exact absurd (hsame names) h
  have heq : names = place := by
    by_cases heq : names = place
    · exact heq
    · exact absurd ((hcontent names).trans (if_neg heq)) h
  subst heq
  have hname := name_of_conversion hc
  obtain ⟨base, hbase, hnames⟩ := walk_of_locate_targetOf hname hplace
  rw [targetOf, target_eq, hname] at hplace
  rw [hname] at hnames
  exact ⟨⟨base, _, _, hbase, hplace, hnames.trans (List.append_assoc ..).symm,
    fun _ => isWord_of_mem_targetFolders, isWord_ownPascal _ _⟩, _, (hcontent names).trans (if_pos rfl)⟩

/-- What a run changes is code below the output directory. -/
theorem isCode_of_treeAfter (h : (plan.treeAfter t files).content? names ≠ t.content? names) :
    IsCode (plan.treeAfter t files) plan.outDir names := by
  induction files generalizing t with
  | nil => exact absurd rfl h
  | cons file rest ih =>
    by_cases hstep : (plan.step t file).2.content? names = t.content? names
    · exact ih (hstep ▸ h)
    · obtain ⟨hcode, bytes, hcontent⟩ := isCode_of_step hstep
      exact hcode.of_grows hcontent (grows_treeAfter plan _ rest)

/-! ## Kept files -/

/-- Code is not generated over a file, unless files may be replaced. -/
theorem content?_step_of_settled {bytes : ByteArray} (hoverwrite : plan.overwrite = false)
    (hsettled : t.IsSettled plan.outDir) (h : t.content? names = some bytes) :
    (plan.step t file).2.content? names = some bytes := by
  rcases content?_step plan t file with
    ⟨-, hsame⟩ | ⟨c, place, hc, hfree, -, -, hplace, hcontent⟩
  · rw [hsame, h]
  rw [hcontent]
  by_cases heq : names = place
  · subst heq
    rw [hoverwrite, Bool.not_false, Bool.and_true] at hfree
    have hnone := FileTree.content?_eq_none_of_settles
      (isSettled_targetOf hsettled (name_of_conversion hc)) (grows_step plan t file) hplace
      ((hcontent names).trans (if_pos rfl)) hfree
    rw [hnone] at h
    cases h
  · rw [if_neg heq, h]

theorem content?_treeAfter_of_settled {bytes : ByteArray} (hoverwrite : plan.overwrite = false)
    (hsettled : t.IsSettled plan.outDir) (h : t.content? names = some bytes) :
    (plan.treeAfter t files).content? names = some bytes := by
  induction files generalizing t with
  | nil => exact h
  | cons file rest ih =>
    exact ih (hsettled.of_grows (grows_step plan t file))
      (content?_step_of_settled hoverwrite hsettled h)

/-! ## The run -/

/-- What is printed and counted, what a drawing that is not converted leaves alone, and which files a run
changes. -/
theorem run_accounts (hplan : planOf? s arguments = some plan) :
    let result := (run Session.host arguments).run s
    let r := plan.outcomes s.tree
    result.2.output = s.output ++ heading plan (plan.drawings s.tree) ++ r.printed ++
        printedLines r.summary.lines ∧
      r.summary.processed + r.summary.skipped + r.summary.failed = (plan.drawings s.tree).length ∧
      (result.1 = 1 ↔ 0 < r.summary.failed) ∧ (result.1 = 0 ↔ r.summary.failed = 0) ∧
      (∀ before file after error, plan.drawings s.tree = before ++ file :: after →
        plan.conversion (plan.treeAfter s.tree before) file = .error error →
          r = plan.record s.tree before ++
              (file, .failed error) :: plan.record (plan.treeAfter s.tree before) after ∧
            plan.record s.tree (before ++ after) =
              plan.record s.tree before ++ plan.record (plan.treeAfter s.tree before) after ∧
            result.2.tree = plan.treeAfter s.tree (before ++ after)) ∧
      (∀ names, result.2.tree.content? names ≠ s.tree.content? names →
        IsCode result.2.tree plan.outDir names) ∧
      (plan.overwrite = false → s.tree.IsSettled plan.outDir → ∀ names bytes,
        s.tree.content? names = some bytes → result.2.tree.content? names = some bytes) ∧
      (plan.dryRun = true → result.2.tree = s.tree) := by
  intro result r
  have hresult : result = (exitCode r, { carriedOut s plan with
      errors := (carriedOut s plan).errors ++ complaint r }) := run_batch hplan
  rw [hresult]
  refine ⟨rfl, ?_, exitCode_eq_one_iff r, exitCode_eq_zero_iff r, ?_, fun names => isCode_of_treeAfter,
    fun hoverwrite hsettled names bytes => content?_treeAfter_of_settled hoverwrite hsettled,
    treeAfter_of_dryRun⟩
  · rw [summary_total]
    exact length_record plan s.tree (plan.drawings s.tree)
  · intro before file after error hdrawings herror
    have hrecord : r = plan.record s.tree (before ++ file :: after) := congrArg _ hdrawings
    obtain ⟨hwith, hwithout, htree⟩ := record_of_failed herror
    refine ⟨hrecord.trans hwith, hwithout, ?_⟩
    show plan.treeAfter s.tree (plan.drawings s.tree) = _
    rw [hdrawings]
    exact htree

/-- A drawing whose code is there already. -/
def visited : Session where
  tree := { files := [(["in", "home.svg"], "<svg/>".toUTF8), (["out", "Home.kt"], "old".toUTF8)] }
  input := .empty

/-- How it is converted to a directory. -/
def visitedPlan (outDir : String) : BatchPlan where
  root := ⟨"in"⟩
  outDir := ⟨outDir⟩
  folders := true
  dryRun := false
  overwrite := false
  template := .value
  config := {}
  mode := .strict

/-- The code that is there is kept. -/
theorem run_accounts_visited :
    ((run Session.host ["batch", "in", "-o", "/out"]).run visited).2.tree.content? ["out", "Home.kt"] =
      some "old".toUTF8 := by
  have hplan : planOf? visited ["batch", "in", "-o", "/out"] = some (visitedPlan "/out") := by rfl
  have hwalk : visited.tree.walk [] (FilePath.mk "/out").components = .ok ["out"] := by rfl
  obtain ⟨-, -, -, -, -, -, hkept, -⟩ := run_accounts hplan
  exact hkept rfl ⟨_, FileTree.settles_of_walk hwalk⟩ ["out", "Home.kt"] _ rfl

/-- On the way through a directory that is not there yet, the code that is there is not seen. -/
theorem run_replaces_visited :
    planOf? visited ["batch", "in", "-o", "new/../out"] = some (visitedPlan "new/../out") ∧
      (visitedPlan "new/../out").overwrite = false ∧
      visited.tree.content? ["out", "Home.kt"] = some "old".toUTF8 ∧
      ((run Session.host ["batch", "in", "-o", "new/../out"]).run visited).2.tree.content?
        ["out", "Home.kt"] ≠ some "old".toUTF8 := by
  have hplan : planOf? visited ["batch", "in", "-o", "new/../out"] =
      some (visitedPlan "new/../out") := by rfl
  refine ⟨hplan, rfl, rfl, ?_⟩
  have hdrawings : (visitedPlan "new/../out").drawings visited.tree = [⟨"in/home.svg"⟩] :=
    drawings_of_pairwise (by decide +kernel) (by decide +kernel)
  have htarget : ((visitedPlan "new/../out").conversion visited.tree ⟨"in/home.svg"⟩).toOption.map
      (visitedPlan "new/../out").targetOf = some ⟨"new/../out/Home.kt"⟩ := by decide +kernel
  obtain ⟨c, hc, htarget⟩ := exists_of_toOption_map htarget
  have hstep := step_of_saved hc htarget rfl rfl rfl
  have hfinal : (visitedPlan "new/../out").treeAfter visited.tree [⟨"in/home.svg"⟩] =
      (visited.tree.save ⟨"new/../out/Home.kt"⟩ (bytesOf c)).2 := congrArg Prod.snd hstep
  have hcontent : (visited.tree.save ⟨"new/../out/Home.kt"⟩ (bytesOf c)).2.content?
      ["out", "Home.kt"] = some (bytesOf c) := by rfl
  rw [run_batch hplan]
  dsimp only [carriedOut]
  rw [hdrawings, hfinal, hcontent]
  intro heq
  have htext : c.code ++ "\n" = "old" := String.toByteArray_inj.1 (Option.some.inj heq)
  have hlast := congrArg (·.toList.getLast?) htext
  simp at hlast

end VectorIcon.Cli
