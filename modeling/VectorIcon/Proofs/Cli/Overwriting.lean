import VectorIcon.Proofs.Cli.Run

/-!
# Whose code a file holds after a run

Different drawings can have one target. The file then holds the code of the drawing that comes last, and a
drawing whose target no later one shares keeps its code (`run_holds_last`).
-/

namespace VectorIcon.Cli

open BatchPlan

variable {current : List String} {s : Session current} {arguments : List String} {plan : BatchPlan}

/-- What is printed tells the targets of the drawings in order. Every drawing that counts as converted has its
own code generated, and this code is in its target after the run, if no later drawing has code generated for
the same target. -/
theorem run_holds_last (hplan : planOf? s arguments = some plan) (hdry : plan.dryRun = false)
    {before after : Record} {file : FilePath} {outcome : Outcome}
    (hentry : plan.outcomes s.tree = before ++ (file, outcome) :: after)
    (hprocessed : outcome.isProcessed = true) :
    ((run Session.host arguments).run s).2.output = s.output ++ heading plan (plan.drawings s.tree) ++
        (plan.outcomes s.tree).printed ++ printedLines (plan.outcomes s.tree).summary.lines ∧
    ∃ c, plan.conversion (plan.treeAfter s.tree (before.map Prod.fst)) file = .ok c ∧
      outcome = .generated (plan.targetOf c) c.code ∧
      ((∀ entry ∈ after, ∀ code, entry.2 ≠ .generated (plan.targetOf c) code) →
        ((run Session.host arguments).run s).2.tree.read (plan.targetOf c) =
          .ok (c.code ++ "\n").toUTF8) := by
  obtain ⟨rest, -, houtcome, -⟩ := exists_of_record_eq hentry
  rw [houtcome] at hprocessed
  obtain ⟨path, code, hgenerated⟩ := exists_generated_of_isProcessed hdry hprocessed
  obtain rfl := houtcome.trans hgenerated
  obtain ⟨c, hc, rfl, rfl, hread⟩ := read_treeAfter hentry
  rw [run_batch hplan]
  exact ⟨rfl, c, hc, rfl, hread⟩

/-! ## Drawings with one target -/

theorem eq_of_withImports_eq {l : Template.Layout} {imports : List String} {body body' : String}
    (h : Template.withImports l imports body = Template.withImports l imports body') :
    body = body' := by
  unfold Template.withImports at h
  dsimp only at h
  split at h
  · exact h
  · exact (String.append_right_inj _).1 h

/-- Two drawings whose names differ in a character that no target has. -/
def namesakes : Session where
  tree := {
    files := [(["in", "a+b.svg"], "<svg/>".toUTF8), (["in", "a_b.svg"], "<svg/>".toUTF8)] }
  input := .empty

/-- How they are converted. -/
def namesakesPlan : BatchPlan where
  root := ⟨"in"⟩
  outDir := ⟨"."⟩
  folders := true
  dryRun := false
  overwrite := false
  template := .value
  config := {}
  mode := .strict

theorem drawings_namesakes :
    namesakesPlan.drawings namesakes.tree = [⟨"in/a+b.svg"⟩, ⟨"in/a_b.svg"⟩] :=
  drawings_of_pairwise (by decide +kernel) (by decide +kernel)

/-- The imports and the declaration that the code of a conversion is made of. -/
def codeParts (plan : BatchPlan) (file : FilePath) (c : Conversion) : List String × String :=
  let p := partsOf (plan.options file) c
  (Template.importsOf p plan.template,
    Template.declaration (Conversion.templateLayout plan.config) p plan.template)

theorem code_ne_of_codeParts {t t' : FileTree current} {file file' : FilePath} {c c' : Conversion}
    (htemplate : plan.config.template = none) (hmulticolor : plan.config.multicolorTemplate = none)
    (hc : plan.conversion t file = .ok c) (hc' : plan.conversion t' file' = .ok c')
    (himports : (codeParts plan file c).1 = (codeParts plan file' c').1)
    (hbody : (codeParts plan file c).2 ≠ (codeParts plan file' c').2) : c.code ≠ c'.code := by
  obtain ⟨text, -, hconvert⟩ := convert_of_conversion hc
  obtain ⟨text', -, hconvert'⟩ := convert_of_conversion hc'
  rw [code_of_convert hconvert htemplate hmulticolor, code_of_convert hconvert' htemplate hmulticolor]
  unfold Template.Builtin.render
  intro heq
  refine hbody (eq_of_withImports_eq (heq.trans ?_))
  exact congrArg (Template.withImports _ · _) himports.symm

theorem conversions_namesakes : ∃ c c',
    namesakesPlan.conversion namesakes.tree ⟨"in/a+b.svg"⟩ = .ok c ∧
      namesakesPlan.conversion namesakes.tree ⟨"in/a_b.svg"⟩ = .ok c' ∧
      namesakesPlan.targetOf c = ⟨"./AB.kt"⟩ ∧ namesakesPlan.targetOf c' = ⟨"./AB.kt"⟩ ∧
      c.code ≠ c'.code := by
  have hlook : (do
      let c ← (namesakesPlan.conversion namesakes.tree ⟨"in/a+b.svg"⟩).toOption
      let c' ← (namesakesPlan.conversion namesakes.tree ⟨"in/a_b.svg"⟩).toOption
      return decide (namesakesPlan.targetOf c = ⟨"./AB.kt"⟩ ∧
        namesakesPlan.targetOf c' = ⟨"./AB.kt"⟩ ∧
        (codeParts namesakesPlan ⟨"in/a+b.svg"⟩ c).1 = (codeParts namesakesPlan ⟨"in/a_b.svg"⟩ c').1 ∧
        (codeParts namesakesPlan ⟨"in/a+b.svg"⟩ c).2 ≠ (codeParts namesakesPlan ⟨"in/a_b.svg"⟩ c').2)) =
      some true := by
    decide +kernel
  obtain ⟨c, hc, hlook⟩ := Option.bind_eq_some_iff.1 hlook
  obtain ⟨c', hc', hlook⟩ := Option.bind_eq_some_iff.1 hlook
  obtain ⟨htarget, htarget', himports, hbody⟩ := of_decide_eq_true (Option.some.inj hlook)
  have hc := eq_ok_of_toOption hc
  have hc' := eq_ok_of_toOption hc'
  exact ⟨c, c', hc, hc', htarget, htarget', code_ne_of_codeParts rfl rfl hc hc' himports hbody⟩

/-- The outcomes of two drawings. -/
theorem outcomes_of_steps {t t' t'' : FileTree current} {file file' : FilePath} {outcome outcome' : Outcome}
    (hdrawings : plan.drawings t = [file, file']) (hfirst : plan.step t file = (outcome, t'))
    (hsecond : plan.step t' file' = (outcome', t'')) :
    plan.outcomes t = [(file, outcome), (file', outcome')] := by
  rw [outcomes, hdrawings, record, record, record, hfirst, hsecond]

/-- The namesakes are converted by their plan, with existing files replaced. -/
def replacing : BatchPlan := { namesakesPlan with overwrite := true }

theorem planOf?_namesakes :
    planOf? namesakes ["batch", "in", "--overwrite"] = some replacing := by
  rfl

theorem outcomes_namesakes : ∃ code code', code ≠ code' ∧
    replacing.outcomes namesakes.tree = [(⟨"in/a+b.svg"⟩, .generated ⟨"./AB.kt"⟩ code)] ++
      (⟨"in/a_b.svg"⟩, .generated ⟨"./AB.kt"⟩ code') :: [] := by
  obtain ⟨c, c', hc, hc', htarget, htarget', hne⟩ := conversions_namesakes
  have hfirst : replacing.step namesakes.tree ⟨"in/a+b.svg"⟩ = _ :=
    step_of_saved hc htarget (Bool.and_false _) rfl rfl
  have hc' : replacing.conversion (namesakes.tree.save ⟨"./AB.kt"⟩ (bytesOf c)).2 ⟨"in/a_b.svg"⟩ =
      .ok c' := (conversion_congr rfl rfl).trans hc'
  have hsecond := step_of_saved hc' htarget' (Bool.and_false _) rfl rfl
  exact ⟨c.code, c'.code, hne, outcomes_of_steps drawings_namesakes hfirst hsecond⟩

/-- The second of the namesakes keeps its code. -/
theorem run_holds_last_namesakes : ∃ code,
    ((run Session.host ["batch", "in", "--overwrite"]).run namesakes).2.tree.read ⟨"./AB.kt"⟩ =
      .ok (code ++ "\n").toUTF8 := by
  obtain ⟨code, code', -, houtcomes⟩ := outcomes_namesakes
  obtain ⟨-, c, -, hgenerated, hread⟩ := run_holds_last planOf?_namesakes rfl houtcomes rfl
  obtain ⟨htarget, -⟩ := Outcome.generated.inj hgenerated
  rw [← htarget] at hread
  exact ⟨c.code, hread fun _ hentry => (nomatch hentry)⟩

/-- The first one counts as converted, and its code is lost. -/
theorem namesakes_lose_code : ∃ code code',
    planOf? namesakes ["batch", "in", "--overwrite"] = some replacing ∧
      replacing.overwrite = true ∧ replacing.dryRun = false ∧
      replacing.outcomes namesakes.tree =
        [(⟨"in/a+b.svg"⟩, .generated ⟨"./AB.kt"⟩ code),
          (⟨"in/a_b.svg"⟩, .generated ⟨"./AB.kt"⟩ code')] ∧
      ((run Session.host ["batch", "in", "--overwrite"]).run namesakes).2.tree.read ⟨"./AB.kt"⟩ ≠
        .ok (code ++ "\n").toUTF8 := by
  obtain ⟨code, code', hne, houtcomes⟩ := outcomes_namesakes
  refine ⟨code, code', planOf?_namesakes, rfl, rfl, houtcomes, ?_⟩
  obtain ⟨c, -, htarget, rfl, hread⟩ := read_treeAfter houtcomes
  have hlast := hread fun _ hentry => (nomatch hentry)
  rw [run_batch planOf?_namesakes]
  intro hlost
  have hbytes : (c.code ++ "\n").toUTF8 = (code ++ "\n").toUTF8 :=
    Except.ok.inj (hlast.symm.trans (htarget ▸ hlost))
  exact hne ((String.append_left_inj _).1 (String.toByteArray_inj.1 hbytes)).symm

end VectorIcon.Cli
