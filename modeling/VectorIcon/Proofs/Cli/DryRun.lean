import VectorIcon.Proofs.Cli.Arguments
import VectorIcon.Proofs.Cli.Foretelling
import VectorIcon.Proofs.Cli.Overwriting

/-!
# What a dry run tells

A dry run changes nothing, and tells what the run with the same arguments does (`dryRun_foretells`). It is
misled by drawings with one target when files must not be replaced, by a way to the output directory that goes
through a directory that the run makes, and by a template file that the run writes (`dryRun_misleads`).
-/

namespace VectorIcon.Cli

open BatchPlan FilePath

variable {current : List String} {s : Session current} {t : FileTree current}
variable {plan : BatchPlan} {file path : FilePath}

/-! ## Plans -/

theorem run_planBatch_dry (s : Session current) (a : Arguments) :
    ((planBatch Session.host a.dry).run.run s).1 =
      ((planBatch Session.host a).run.run s).1.map foretelling := by
  unfold planBatch
  rw [show a.dry.inputFile = a.inputFile from rfl]
  cases a.inputFile with
  | none => rfl
  | some root =>
    have hroot : (Session.host.isDirectory root).run s = (s.tree.isDirectory root, s) := rfl
    dsimp only
    rw [run_lift hroot, run_lift hroot]
    by_cases hdir : s.tree.isDirectory root = true
    · rw [if_pos hdir, if_pos hdir,
        show loadConfig Session.host a.dry = loadConfig Session.host a from rfl]
      obtain ⟨result, hconfig⟩ := exists_run_loadConfig s a
      cases result with
      | error error =>
        rw [run_error hconfig, run_error hconfig]
        rfl
      | ok config =>
        rw [run_ok hconfig, run_ok hconfig]
        rfl
    · rw [if_neg hdir, if_neg hdir]
      rfl

/-! ## The runs -/

/-- A dry run changes nothing. It is refused as the run with the same arguments is; or it tells what that run
does, each target once more for each further drawing that has it when files must not be replaced; when no
target is told twice, or files may be replaced, it tells just what the run does. -/
theorem dryRun_foretells {before rest : List String} {a b : Arguments}
    (hbefore : Arguments.parse before = .ok b) (hparse : Arguments.parse (before ++ rest) = .ok a)
    (hcommand : a.command = .batch) :
    let dryResult := (run Session.host (before ++ "--dry-run" :: rest)).run s
    let result := (run Session.host (before ++ rest)).run s
    dryResult.2.tree = s.tree ∧ (planOf? s (before ++ rest) = none → dryResult = result) ∧
      ∀ plan, planOf? s (before ++ rest) = some plan → plan.dryRun = false →
        let dry := plan.foretelling.outcomes s.tree
        let real := plan.outcomes s.tree
        dryResult.2.output = s.output ++ heading plan.foretelling (plan.drawings s.tree) ++ dry.printed ++
            printedLines dry.summary.lines ∧
          result.2.output = s.output ++ heading plan (plan.drawings s.tree) ++ real.printed ++
            printedLines real.summary.lines ∧
          (IsForeseeable s plan →
            createdPaths real.fates = (if plan.overwrite then createdPaths dry.fates
              else (createdPaths dry.fates).eraseDups) ∧
            real.summary.failed = dry.summary.failed ∧
            (plan.overwrite = true ∨ (createdPaths dry.fates).Nodup →
              createdPaths real.fates = createdPaths dry.fates ∧
              skippedPaths real.fates = skippedPaths dry.fates ∧ real.summary = dry.summary)) := by
  intro dryResult result
  have hparse' : Arguments.parse (before ++ "--dry-run" :: rest) = .ok a.dry := by
    rw [Arguments.parse_dryRun hbefore, hparse]
    rfl
  have hplans := run_planBatch_dry s a
  have hplan := planOf?_of_batch (s := s) hparse hcommand
  have hplan' := planOf?_of_batch (s := s) hparse' hcommand
  rw [hplans] at hplan'
  cases hmade : ((planBatch Session.host a).run.run s).1 with
  | error error =>
    rw [hmade] at hplans hplan
    have hdry : dryResult = _ := run_refused hparse' hcommand hplans
    have hresult : result = _ := run_refused hparse hcommand hmade
    refine ⟨congrArg (·.2.tree) hdry, fun _ => hdry.trans hresult.symm, fun plan hsome => ?_⟩
    rw [hplan] at hsome
    cases hsome
  | ok plan =>
    rw [hmade] at hplan hplan'
    have hdry : dryResult = _ := run_batch hplan'
    have hresult : result = _ := run_batch hplan
    rw [hdry, hresult, hplan]
    refine ⟨treeAfter_of_dryRun rfl, fun hnone => ?_, fun plan' hsome hreal => ?_⟩
    · cases hnone
    cases hsome
    intro dry real
    exact ⟨rfl, rfl, fun h => (foretellsAll_outcomes hreal h).told⟩

/-! ## Where a dry run misleads -/

theorem step_of_present {c : Conversion} (hc : plan.conversion t file = .ok c)
    (hpath : plan.targetOf c = path) (hpresent : t.isPresent path = true)
    (hoverwrite : plan.overwrite = false) : plan.step t file = (.present path, t) := by
  subst hpath
  rw [step, hc]
  rcases settle_cases plan t c with ⟨-, -, hsettle⟩ | ⟨hfree, -⟩
  · exact hsettle
  · rw [hpresent, hoverwrite] at hfree
    cases hfree

theorem step_of_foretold {c : Conversion} (hc : plan.conversion t file = .ok c)
    (hpath : plan.targetOf c = path) (hfree : (t.isPresent path && !plan.overwrite) = false) :
    plan.foretelling.step t file = (.planned path, t) := by
  rw [step_foretelling hc, hpath, hfree, if_neg Bool.false_ne_true]

/-- The outcomes of the namesakes when files must not be replaced. -/
theorem outcomes_namesakes_kept : ∃ code, namesakesPlan.outcomes namesakes.tree =
    [(⟨"in/a+b.svg"⟩, .generated ⟨"./AB.kt"⟩ code), (⟨"in/a_b.svg"⟩, .present ⟨"./AB.kt"⟩)] := by
  obtain ⟨c, c', hc, hc', htarget, htarget', -⟩ := conversions_namesakes
  have hc' : namesakesPlan.conversion (namesakes.tree.save ⟨"./AB.kt"⟩ (bytesOf c)).2
      ⟨"in/a_b.svg"⟩ = .ok c' := (conversion_congr rfl rfl).trans hc'
  exact ⟨c.code, outcomes_of_steps drawings_namesakes (step_of_saved hc htarget rfl rfl rfl)
    (step_of_present hc' htarget' rfl rfl)⟩

theorem isForeseeable_namesakes : IsForeseeable namesakes namesakesPlan where
  names := by decide +kernel
  outDir _ := ⟨[], FileTree.settles_of_walk rfl⟩
  templates _ h := nomatch h
  written := by
    obtain ⟨code, houtcomes⟩ := outcomes_namesakes_kept
    rw [houtcomes]
    intro entry hentry path fault
    rcases List.mem_cons.1 hentry with rfl | hentry
    · exact fun h => nomatch h
    · rw [List.mem_singleton.1 hentry]
      exact fun h => nomatch h

/-- The dry run tells twice of the one file that the run creates. -/
theorem dryRun_foretells_namesakes :
    ((run Session.host ["batch", "in", "--dry-run"]).run namesakes).2.tree = namesakes.tree ∧
      createdPaths (namesakesPlan.outcomes namesakes.tree).fates =
        (createdPaths (namesakesPlan.foretelling.outcomes namesakes.tree).fates).eraseDups := by
  have hparse : ∃ a, Arguments.parse ["batch", "in"] = .ok a ∧ a.command = .batch := ⟨_, rfl, rfl⟩
  obtain ⟨a, hparse, hcommand⟩ := hparse
  have hplan : planOf? namesakes (["batch", "in"] ++ []) = some namesakesPlan := by rfl
  obtain ⟨htree, -, htold⟩ := dryRun_foretells hparse hparse hcommand
  obtain ⟨-, -, hforetold⟩ := htold namesakesPlan hplan rfl
  exact ⟨htree, (hforetold isForeseeable_namesakes).1⟩

/-- A dry run tells of other targets than the run creates, though no code fails to be written. -/
def IsMisled (s : Session current) (arguments : List String) : Prop :=
  ∃ plan, planOf? s arguments = some plan ∧
    planOf? s (arguments ++ ["--dry-run"]) = some plan.foretelling ∧
    (∀ entry ∈ plan.outcomes s.tree, ∀ path fault, entry.2 ≠ .unwritten path fault) ∧
    createdPaths (plan.outcomes s.tree).fates ≠
      createdPaths (plan.foretelling.outcomes s.tree).fates

/-- The second of two targets is foretold, and is passed over or fails. -/
theorem isMisled_of_outcomes {arguments : List String} {file' path' : FilePath} {code : String}
    {outcome : Outcome} (hplan : planOf? s arguments = some plan)
    (hdry : planOf? s (arguments ++ ["--dry-run"]) = some plan.foretelling)
    (hreal : plan.outcomes s.tree = [(file, .generated path code), (file', outcome)])
    (hforetold : plan.foretelling.outcomes s.tree = [(file, .planned path), (file', .planned path')])
    (houtcome : outcome = .present path' ∨ ∃ error, outcome = .failed error) :
    IsMisled s arguments := by
  refine ⟨plan, hplan, hdry, ?_, ?_⟩
  · rw [hreal]
    intro entry hentry fault
    rcases List.mem_cons.1 hentry with rfl | hentry
    · exact fun _ h => nomatch h
    · rw [List.mem_singleton.1 hentry]
      rcases houtcome with rfl | ⟨error, rfl⟩
      · exact fun _ h => nomatch h
      · exact fun _ h => nomatch h
  · rw [hreal, hforetold]
    rcases houtcome with rfl | ⟨error, rfl⟩
    · exact fun heq => absurd (congrArg List.length heq) (by decide : ¬ 1 = 2)
    · exact fun heq => absurd (congrArg List.length heq) (by decide : ¬ 1 = 2)

theorem isMisled_namesakes : IsMisled namesakes ["batch", "in"] := by
  obtain ⟨code, hreal⟩ := outcomes_namesakes_kept
  obtain ⟨c, c', hc, hc', htarget, htarget', -⟩ := conversions_namesakes
  have hplan : planOf? namesakes ["batch", "in"] = some namesakesPlan := by rfl
  have hdry : planOf? namesakes (["batch", "in"] ++ ["--dry-run"]) =
      some namesakesPlan.foretelling := by rfl
  have hdrawings : namesakesPlan.foretelling.drawings namesakes.tree =
      [⟨"in/a+b.svg"⟩, ⟨"in/a_b.svg"⟩] := drawings_namesakes
  have hforetold := outcomes_of_steps hdrawings (step_of_foretold hc htarget rfl)
    (step_of_foretold hc' htarget' rfl)
  exact isMisled_of_outcomes hplan hdry hreal hforetold (.inl rfl)

/-- Two drawings, and the code of the second. -/
def detour : Session where
  tree := {
    files := [(["in", "a.svg"], "<svg/>".toUTF8), (["in", "b.svg"], "<svg/>".toUTF8),
      (["out", "B.kt"], "old".toUTF8)] }
  input := .empty

/-- The way to the output directory goes through a directory that is not there yet. -/
def detourPlan : BatchPlan :=
  { namesakesPlan with outDir := ⟨"new/../out"⟩ }

theorem isMisled_detour : IsMisled detour ["batch", "in", "-o", "new/../out"] := by
  have hplan : planOf? detour ["batch", "in", "-o", "new/../out"] = some detourPlan := by rfl
  have hdry : planOf? detour (["batch", "in", "-o", "new/../out"] ++ ["--dry-run"]) =
      some detourPlan.foretelling := by rfl
  have hdrawings : detourPlan.drawings detour.tree = [⟨"in/a.svg"⟩, ⟨"in/b.svg"⟩] :=
    drawings_of_pairwise (by decide +kernel) (by decide +kernel)
  have htarget : (detourPlan.conversion detour.tree ⟨"in/a.svg"⟩).toOption.map
      detourPlan.targetOf = some ⟨"new/../out/A.kt"⟩ := by decide +kernel
  have htarget' : (detourPlan.conversion detour.tree ⟨"in/b.svg"⟩).toOption.map
      detourPlan.targetOf = some ⟨"new/../out/B.kt"⟩ := by decide +kernel
  obtain ⟨c, hc, htarget⟩ := exists_of_toOption_map htarget
  obtain ⟨c', hc', htarget'⟩ := exists_of_toOption_map htarget'
  have hlater : detourPlan.conversion (detour.tree.save ⟨"new/../out/A.kt"⟩ (bytesOf c)).2
      ⟨"in/b.svg"⟩ = .ok c' := (conversion_congr rfl rfl).trans hc'
  have hreal := outcomes_of_steps hdrawings (step_of_saved hc htarget rfl rfl rfl)
    (step_of_present hlater htarget' rfl rfl)
  have hdrawings' : detourPlan.foretelling.drawings detour.tree =
      [⟨"in/a.svg"⟩, ⟨"in/b.svg"⟩] := hdrawings
  have hforetold := outcomes_of_steps hdrawings' (step_of_foretold hc htarget rfl)
    (step_of_foretold hc' htarget' rfl)
  exact isMisled_of_outcomes hplan hdry hreal hforetold (.inl rfl)

/-- Two drawings, and a template that writes another template. -/
def selfmade : Session where
  tree := {
    files := [(["in", "a.svg"], "<svg/>".toUTF8), (["in", "b.svg"], "<svg/>".toUTF8),
      (["out", "A.kt"], "\x7b\x7b '\x7b% x %\x7d' \x7d\x7d".toUTF8)] }
  input := .empty

/-- The template is the target of the first drawing. -/
def selfmadePlan : BatchPlan :=
  { namesakesPlan with
    outDir := ⟨"out"⟩
    overwrite := true
    config := { template := some ⟨"out/A.kt"⟩ } }

theorem isMisled_selfmade : IsMisled selfmade
    ["batch", "in", "-o", "out", "--overwrite", "--template-file", "out/A.kt"] := by
  have hplan : planOf? selfmade ["batch", "in", "-o", "out", "--overwrite", "--template-file",
      "out/A.kt"] = some selfmadePlan := by rfl
  have hdry : planOf? selfmade (["batch", "in", "-o", "out", "--overwrite", "--template-file",
      "out/A.kt"] ++ ["--dry-run"]) = some selfmadePlan.foretelling := by rfl
  have hdrawings : selfmadePlan.drawings selfmade.tree = [⟨"in/a.svg"⟩, ⟨"in/b.svg"⟩] :=
    drawings_of_pairwise (by decide +kernel) (by decide +kernel)
  have hlook : (selfmadePlan.conversion selfmade.tree ⟨"in/a.svg"⟩).toOption.map
      (fun c => (selfmadePlan.targetOf c, c.code)) = some (⟨"out/A.kt"⟩, "\x7b% x %\x7d") := by
    decide +kernel
  have htarget' : (selfmadePlan.conversion selfmade.tree ⟨"in/b.svg"⟩).toOption.map
      selfmadePlan.targetOf = some ⟨"out/B.kt"⟩ := by decide +kernel
  have hfails : (selfmadePlan.conversion (selfmade.tree.save ⟨"out/A.kt"⟩
      ("\x7b% x %\x7d" ++ "\n").toUTF8).2 ⟨"in/b.svg"⟩).toOption.isNone = true := by decide +kernel
  obtain ⟨c, hc, hlook⟩ := exists_of_toOption_map hlook
  obtain ⟨htarget, hcode⟩ := Prod.mk.inj hlook
  obtain ⟨c', hc', htarget'⟩ := exists_of_toOption_map htarget'
  have hdrawings' : selfmadePlan.foretelling.drawings selfmade.tree =
      [⟨"in/a.svg"⟩, ⟨"in/b.svg"⟩] := hdrawings
  have hforetold := outcomes_of_steps hdrawings' (step_of_foretold hc htarget rfl)
    (step_of_foretold hc' htarget' rfl)
  rw [← hcode] at hfails
  cases hlater : selfmadePlan.conversion (selfmade.tree.save ⟨"out/A.kt"⟩ (bytesOf c)).2
      ⟨"in/b.svg"⟩ with
  | ok c'' =>
    rw [show (c.code ++ "\n").toUTF8 = bytesOf c from rfl, hlater] at hfails
    cases hfails
  | error error =>
    have hsecond : selfmadePlan.step (selfmade.tree.save ⟨"out/A.kt"⟩ (bytesOf c)).2 ⟨"in/b.svg"⟩ =
        (.failed error, (selfmade.tree.save ⟨"out/A.kt"⟩ (bytesOf c)).2) := by
      rw [step, hlater]
    have hreal := outcomes_of_steps hdrawings (step_of_saved hc htarget (Bool.and_false _) rfl rfl)
      hsecond
    exact isMisled_of_outcomes hplan hdry hreal hforetold (.inr ⟨error, rfl⟩)

/-- A dry run is misled by drawings with one target, by a way through a directory that the run makes, and by
a template that the run writes. -/
theorem dryRun_misleads : IsMisled namesakes ["batch", "in"] ∧
    IsMisled detour ["batch", "in", "-o", "new/../out"] ∧
    IsMisled selfmade ["batch", "in", "-o", "out", "--overwrite", "--template-file", "out/A.kt"] :=
  ⟨isMisled_namesakes, isMisled_detour, isMisled_selfmade⟩

end VectorIcon.Cli
