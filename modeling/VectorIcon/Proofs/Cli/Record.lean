import VectorIcon.Proofs.Cli.Target
import VectorIcon.Proofs.Fallible
import VectorIcon.Proofs.FileSystem.Saving
import VectorIcon.Proofs.Name.Source

/-!
# What becomes of drawings

Drawings are converted one after the other. Each of them has an outcome in the tree that the drawings
before it have left, and leaves a tree of its own (`BatchPlan.step`). A step changes nothing but the place
of one target, and only when code is written there (`step_cases`, `content?_step`); so the record of a run
tells what every place holds after it (`read_treeAfter`).
-/

namespace VectorIcon

variable {current : List String}

/-- The text of a file of a tree. -/
def FileTree.text (t : FileTree current) (path : FilePath) : Except FileFault String :=
  (t.read path).bind textOfBytes

namespace Cli

/-! ## Outcomes -/

/-- What becomes of a drawing. -/
inductive Outcome
  | failed (error : Error)
  | present (path : FilePath)
  | planned (path : FilePath)
  | generated (path : FilePath) (code : String)
  | unwritten (path : FilePath) (fault : FileFault)

/-- What is printed about a drawing. -/
def Outcome.printed : Outcome → String
  | .present path => "Skipped (exists): " ++ path.text ++ "\n"
  | .planned path => "Would create: " ++ path.text ++ "\n"
  | .generated path _ => "Generated " ++ path.text ++ "\n"
  | .failed _ | .unwritten .. => ""

/-- What is reported about a drawing. -/
def Outcome.reported (file : FilePath) : Outcome → String
  | .failed error => "Failed: " ++ file.text ++ ": " ++ error.message ++ "\n"
  | .unwritten _ fault => "Failed: " ++ file.text ++ ": " ++ (Error.input fault).message ++ "\n"
  | .present _ | .planned _ | .generated .. => ""

/-- A summary with one more drawing. -/
def Outcome.count (s : Summary) : Outcome → Summary
  | .present _ => { s with skipped := s.skipped + 1 }
  | .planned _ | .generated .. => { s with processed := s.processed + 1 }
  | .failed _ | .unwritten .. => { s with failed := s.failed + 1 }

/-- The drawing counts as converted. -/
def Outcome.isProcessed : Outcome → Bool
  | .planned _ | .generated .. => true
  | _ => false

/-- The drawing counts as passed over. -/
def Outcome.isSkipped : Outcome → Bool
  | .present _ => true
  | _ => false

/-- The drawing counts as not converted. -/
def Outcome.isFailed : Outcome → Bool
  | .failed _ | .unwritten .. => true
  | _ => false

/-- The target that code was generated for. -/
def Outcome.generated? : Outcome → Option FilePath
  | .generated path _ => some path
  | _ => none

/-- Drawings with what becomes of them. -/
abbrev Record := List (FilePath × Outcome)

namespace Record

/-- What is printed about some drawings. -/
def printed : Record → String
  | [] => ""
  | entry :: rest => entry.2.printed ++ printed rest

/-- What is reported about some drawings. -/
def reported : Record → String
  | [] => ""
  | entry :: rest => entry.2.reported entry.1 ++ reported rest

/-- A summary with some more drawings. -/
def countFrom (s : Summary) (r : Record) : Summary :=
  r.foldl (fun s entry => entry.2.count s) s

/-- The summary of some drawings. -/
def summary (r : Record) : Summary :=
  r.countFrom {}

theorem countFrom_eq (s : Summary) (r : Record) : r.countFrom s =
    { processed := s.processed + r.countP (·.2.isProcessed)
      skipped := s.skipped + r.countP (·.2.isSkipped)
      failed := s.failed + r.countP (·.2.isFailed) } := by
  induction r generalizing s with
  | nil => rfl
  | cons entry rest ih =>
    obtain ⟨file, outcome⟩ := entry
    have hcons : countFrom s ((file, outcome) :: rest) = countFrom (outcome.count s) rest := rfl
    rw [hcons, ih, List.countP_cons, List.countP_cons, List.countP_cons]
    cases outcome <;> simp [Outcome.count, Outcome.isProcessed, Outcome.isSkipped,
      Outcome.isFailed, Nat.add_assoc, Nat.add_comm 1]

/-- A summary counts the drawings of each kind. -/
theorem summary_eq (r : Record) : r.summary =
    ⟨r.countP (·.2.isProcessed), r.countP (·.2.isSkipped), r.countP (·.2.isFailed)⟩ := by
  rw [summary, countFrom_eq]
  simp only [Nat.zero_add]

end Record

/-! ## One drawing after the other -/

/-- The template files of some settings. -/
def templatePaths (c : Config) : List FilePath :=
  c.multicolorTemplate.toList ++ c.template.toList

/-- What the template files of some settings hold in a tree. -/
def templatesOf (t : FileTree current) (c : Config) : FilePath → Except FileFault String :=
  let contents := (templatePaths c).map fun path => (path, t.text path)
  fun path => (contents.lookup path).getD (.error .missing)

namespace BatchPlan

/-- The conversion of a file of a tree. -/
def conversion (plan : BatchPlan) (t : FileTree current) (file : FilePath) : Except Error Conversion :=
  match t.text file with
  | .error fault => .error (.input fault)
  | .ok text =>
    (Conversion.convert (templatesOf t plan.config) (plan.options file) text).mapError .conversion

/-- The file for the code of a conversion. -/
def targetOf (plan : BatchPlan) (c : Conversion) : FilePath :=
  target plan.outDir plan.folders c.name

/-- What becomes of a drawing that is converted, and the tree after it. -/
def settle (plan : BatchPlan) (t : FileTree current) (c : Conversion) : Outcome × FileTree current :=
  let path := plan.targetOf c
  if t.isPresent path && !plan.overwrite then (.present path, t)
  else if plan.dryRun then (.planned path, t)
  else match t.save path (c.code ++ "\n").toUTF8 with
    | (.ok _, t) => (.generated path c.code, t)
    | (.error fault, t) => (.unwritten path fault, t)

/-- What becomes of a drawing, and the tree after it. -/
def step (plan : BatchPlan) (t : FileTree current) (file : FilePath) : Outcome × FileTree current :=
  match plan.conversion t file with
  | .ok c => plan.settle t c
  | .error error => (.failed error, t)

/-- The tree after some drawings. -/
def treeAfter (plan : BatchPlan) (t : FileTree current) (files : List FilePath) : FileTree current :=
  files.foldl (fun t file => (plan.step t file).2) t

/-- What becomes of some drawings, one after the other. -/
def record (plan : BatchPlan) (t : FileTree current) : List FilePath → Record
  | [] => []
  | file :: files => (file, (plan.step t file).1) :: plan.record (plan.step t file).2 files

/-- The drawings of a plan in a tree. -/
def drawings (plan : BatchPlan) (t : FileTree current) : List FilePath :=
  drawingsOf (t.filesBelow plan.root)

/-- What becomes of the drawings of a plan. -/
def outcomes (plan : BatchPlan) (t : FileTree current) : Record :=
  plan.record t (plan.drawings t)

end BatchPlan

/-! ## What a step can do -/

/-- The content of a file of code. -/
def bytesOf (c : Conversion) : ByteArray :=
  (c.code ++ "\n").toUTF8

theorem name_of_convert {files : FilePath → Except FileFault String} {o : Conversion.Options}
    {text name : String} {c : Conversion} (h : Conversion.convert files o text = .ok c)
    (hname : o.name = some name) : c.name = .ofText name := by
  obtain ⟨drawing, -, hnamed, -⟩ := Conversion.exists_of_convert h
  rw [hnamed, Conversion.nameOf, hname, Option.some_or]

/-- What a built-in template is given of a conversion. -/
def partsOf (o : Conversion.Options) (c : Conversion) : Template.Parts :=
  ⟨(Kotlin.generate o.config.layout (.ofEntries []) c.icon).code, c.imports, c.name⟩

/-- Without template files, the code of a conversion is what a built-in template makes of it. -/
theorem code_of_convert {files : FilePath → Except FileFault String} {o : Conversion.Options}
    {text : String} {c : Conversion} (h : Conversion.convert files o text = .ok c)
    (htemplate : o.config.template = none) (hmulticolor : o.config.multicolorTemplate = none) :
    c.code = o.template.render (Conversion.templateLayout o.config) (partsOf o c) := by
  simp only [Conversion.convert, Conversion.multicolorText, hmulticolor, Conversion.plainText,
    htemplate, bind, Except.bind] at h
  split at h
  · cases h
  · cases h
    rfl

namespace BatchPlan

variable {plan : BatchPlan} {t : FileTree current} {file : FilePath} {c : Conversion}

theorem convert_of_conversion (h : plan.conversion t file = .ok c) :
    ∃ text, t.text file = .ok text ∧
      Conversion.convert (templatesOf t plan.config) (plan.options file) text = .ok c := by
  unfold conversion at h
  cases htext : t.text file with
  | error fault =>
    rw [htext] at h
    cases h
  | ok text =>
    rw [htext] at h
    dsimp only at h
    refine ⟨text, rfl, ?_⟩
    cases hconvert : Conversion.convert (templatesOf t plan.config) (plan.options file) text with
    | error error =>
      rw [hconvert] at h
      cases h
    | ok c' =>
      rw [hconvert] at h
      cases h
      rfl

/-- A drawing is named by where it is below the directory. -/
theorem name_of_conversion (h : plan.conversion t file = .ok c) :
    c.name = .ofText (iconName plan.root file) := by
  obtain ⟨text, -, hconvert⟩ := convert_of_conversion h
  exact name_of_convert hconvert rfl

/-- A conversion depends on the text of its drawing and on the template files. -/
theorem conversion_congr {t' : FileTree current} (htext : t'.text file = t.text file)
    (htemplates : templatesOf t' plan.config = templatesOf t plan.config) :
    plan.conversion t' file = plan.conversion t file := by
  rw [conversion, conversion, htext, htemplates]

/-- A drawing that is converted is passed over, or only planned, or its code is saved. -/
theorem settle_cases (plan : BatchPlan) (t : FileTree current) (c : Conversion) :
    (t.isPresent (plan.targetOf c) = true ∧ plan.overwrite = false ∧
        plan.settle t c = (.present (plan.targetOf c), t)) ∨
      (t.isPresent (plan.targetOf c) && !plan.overwrite) = false ∧
        ((plan.dryRun = true ∧ plan.settle t c = (.planned (plan.targetOf c), t)) ∨
          plan.dryRun = false ∧
            ((∃ fault, (t.save (plan.targetOf c) (bytesOf c)).1 = .error fault ∧
                plan.settle t c = (.unwritten (plan.targetOf c) fault,
                  (t.save (plan.targetOf c) (bytesOf c)).2)) ∨
              (t.save (plan.targetOf c) (bytesOf c)).1 = .ok () ∧
                plan.settle t c = (.generated (plan.targetOf c) c.code,
                  (t.save (plan.targetOf c) (bytesOf c)).2))) := by
  unfold settle
  dsimp only
  by_cases hskip : (t.isPresent (plan.targetOf c) && !plan.overwrite) = true
  · rw [if_pos hskip]
    obtain ⟨hpresent, hoverwrite⟩ := Bool.and_eq_true_iff.1 hskip
    exact .inl ⟨hpresent, by simpa using hoverwrite, rfl⟩
  rw [if_neg hskip]
  refine .inr ⟨Bool.eq_false_iff.2 hskip, ?_⟩
  by_cases hdry : plan.dryRun = true
  · rw [if_pos hdry]
    exact .inl ⟨hdry, rfl⟩
  rw [if_neg hdry]
  refine .inr ⟨Bool.eq_false_iff.2 hdry, ?_⟩
  rw [show (c.code ++ "\n").toUTF8 = bytesOf c from rfl]
  cases t.save (plan.targetOf c) (bytesOf c) with
  | mk result t' =>
    cases result with
    | error fault => exact .inl ⟨fault, rfl, rfl⟩
    | ok => exact .inr ⟨rfl, rfl⟩

/-- A drawing fails, and nothing changes, or it is converted. -/
theorem step_cases (plan : BatchPlan) (t : FileTree current) (file : FilePath) :
    (∃ error, plan.conversion t file = .error error ∧ plan.step t file = (.failed error, t)) ∨
      ∃ c, plan.conversion t file = .ok c ∧ plan.step t file = plan.settle t c := by
  unfold step
  cases plan.conversion t file with
  | error error => exact .inl ⟨error, rfl, rfl⟩
  | ok c => exact .inr ⟨c, rfl, rfl⟩

/-- Code that is neither kept back nor refused is generated. -/
theorem step_of_saved {path : FilePath} (hc : plan.conversion t file = .ok c)
    (hpath : plan.targetOf c = path) (hfree : (t.isPresent path && !plan.overwrite) = false)
    (hdry : plan.dryRun = false) (hsave : (t.save path (bytesOf c)).1 = .ok ()) :
    plan.step t file = (.generated path c.code, (t.save path (bytesOf c)).2) := by
  subst hpath
  rw [step, hc]
  rcases settle_cases plan t c with ⟨hpresent, hoverwrite, -⟩ |
    ⟨-, ⟨hdry', -⟩ | ⟨-, ⟨fault, herror, -⟩ | ⟨-, hsettle⟩⟩⟩
  · rw [hpresent, hoverwrite] at hfree
    cases hfree
  · rw [hdry] at hdry'
    cases hdry'
  · rw [hsave] at herror
    cases herror
  · exact hsettle

theorem grows_step (plan : BatchPlan) (t : FileTree current) (file : FilePath) :
    t.Grows (plan.step t file).2 := by
  rcases step_cases plan t file with ⟨error, -, hstep⟩ | ⟨c, -, hstep⟩
  · rw [hstep]
    exact .refl t
  rw [hstep]
  rcases settle_cases plan t c with ⟨-, -, hsettle⟩ |
    ⟨-, ⟨-, hsettle⟩ | ⟨-, ⟨fault, -, hsettle⟩ | ⟨-, hsettle⟩⟩⟩
  · rw [hsettle]
    exact .refl t
  · rw [hsettle]
    exact .refl t
  · rw [hsettle]
    dsimp only
    exact FileTree.grows_save t _ _
  · rw [hsettle]
    dsimp only
    exact FileTree.grows_save t _ _

/-- A step changes no content, unless code is generated: then its target leads to a place that holds the
code with a final newline, and all other contents are as before. -/
theorem content?_step (plan : BatchPlan) (t : FileTree current) (file : FilePath) :
    ((∀ path code, (plan.step t file).1 ≠ .generated path code) ∧
        ∀ names, (plan.step t file).2.content? names = t.content? names) ∨
      ∃ c place, plan.conversion t file = .ok c ∧
        (t.isPresent (plan.targetOf c) && !plan.overwrite) = false ∧ plan.dryRun = false ∧
        plan.step t file = (.generated (plan.targetOf c) c.code,
          (t.save (plan.targetOf c) (bytesOf c)).2) ∧
        (plan.step t file).2.locate (plan.targetOf c) = .ok place ∧
        ∀ names, (plan.step t file).2.content? names =
          if names = place then some (bytesOf c) else t.content? names := by
  rcases step_cases plan t file with ⟨error, -, hstep⟩ | ⟨c, hc, hstep⟩
  · rw [hstep]
    exact .inl ⟨fun _ _ h => (nomatch h), fun _ => rfl⟩
  rcases settle_cases plan t c with ⟨-, -, hsettle⟩ |
    ⟨hfree, ⟨-, hsettle⟩ | ⟨hdry, ⟨fault, hsave, hsettle⟩ | ⟨hsave, hsettle⟩⟩⟩
  · rw [hstep, hsettle]
    exact .inl ⟨fun _ _ h => (nomatch h), fun _ => rfl⟩
  · rw [hstep, hsettle]
    exact .inl ⟨fun _ _ h => (nomatch h), fun _ => rfl⟩
  · rw [hstep, hsettle]
    dsimp only
    rcases FileTree.content?_save t (plan.targetOf c) (bytesOf c) with ⟨-, hsame⟩ | ⟨hok, -⟩
    · exact .inl ⟨fun _ _ h => (nomatch h), hsame⟩
    · rw [hok] at hsave
      cases hsave
  · rw [hstep, hsettle]
    dsimp only
    rcases FileTree.content?_save t (plan.targetOf c) (bytesOf c) with
      ⟨⟨fault, herror⟩, -⟩ | ⟨-, place, hplace, hcontent⟩
    · rw [herror] at hsave
      cases hsave
    · exact .inr ⟨c, place, hc, hfree, hdry, rfl, hplace, hcontent⟩

/-- A drawing that counts as converted in a run that writes has its code generated. -/
theorem exists_generated_of_isProcessed (hdry : plan.dryRun = false)
    (h : (plan.step t file).1.isProcessed = true) :
    ∃ path code, (plan.step t file).1 = .generated path code := by
  rcases step_cases plan t file with ⟨error, -, hstep⟩ | ⟨c, -, hstep⟩
  · rw [hstep] at h
    cases h
  rw [hstep] at h ⊢
  rcases settle_cases plan t c with ⟨-, -, hsettle⟩ |
    ⟨-, ⟨hdry', -⟩ | ⟨-, ⟨fault, -, hsettle⟩ | ⟨-, hsettle⟩⟩⟩
  · rw [hsettle] at h
    cases h
  · rw [hdry] at hdry'
    cases hdry'
  · rw [hsettle] at h
    cases h
  · rw [hsettle]
    exact ⟨_, _, rfl⟩

/-- A dry run changes nothing. -/
theorem step_of_dryRun (hdry : plan.dryRun = true) : (plan.step t file).2 = t := by
  rcases step_cases plan t file with ⟨error, -, hstep⟩ | ⟨c, -, hstep⟩
  · rw [hstep]
  rw [hstep]
  rcases settle_cases plan t c with ⟨-, -, hsettle⟩ | ⟨-, ⟨-, hsettle⟩ | ⟨hdry', -⟩⟩
  · rw [hsettle]
  · rw [hsettle]
  · rw [hdry] at hdry'
    cases hdry'

theorem isSettled_targetOf {c : Conversion} {text : String} (h : t.IsSettled plan.outDir)
    (hname : c.name = .ofText text) : t.IsSettled (plan.targetOf c) := by
  obtain ⟨place, hplace⟩ := h
  rw [targetOf, hname, target_eq]
  exact ⟨_, hplace.below fun _ => isEntry_of_mem_targetNames⟩

/-! ## Records -/

variable {before after : List FilePath}

theorem mem_drawings_iff :
    file ∈ plan.drawings t ↔ file ∈ t.filesBelow plan.root ∧ isDrawing file = true := by
  rw [drawings, drawingsOf, (List.mergeSort_perm ..).mem_iff, List.mem_filter]

/-- Drawings that are found in order are taken in this order. -/
theorem drawings_of_pairwise {files : List FilePath}
    (hfiles : (t.filesBelow plan.root).filter isDrawing = files)
    (hsorted : files.Pairwise (FilePath.le · ·)) : plan.drawings t = files := by
  rw [drawings, drawingsOf, hfiles, List.mergeSort_of_pairwise hsorted]

theorem grows_treeAfter (plan : BatchPlan) (t : FileTree current) (files : List FilePath) :
    t.Grows (plan.treeAfter t files) := by
  induction files generalizing t with
  | nil => exact .refl t
  | cons file rest ih => exact (grows_step plan t file).trans (ih _)

theorem treeAfter_of_dryRun {files : List FilePath} (hdry : plan.dryRun = true) :
    plan.treeAfter t files = t := by
  induction files generalizing t with
  | nil => rfl
  | cons file rest ih =>
    refine Eq.trans ih ?_
    exact step_of_dryRun hdry

theorem treeAfter_append : plan.treeAfter t (before ++ after) =
    plan.treeAfter (plan.treeAfter t before) after :=
  List.foldl_append

theorem record_append : plan.record t (before ++ after) =
    plan.record t before ++ plan.record (plan.treeAfter t before) after := by
  induction before generalizing t with
  | nil => rfl
  | cons file rest ih =>
    rw [List.cons_append, record, record, ih]
    rfl

/-- A target leads below the place of the output directory. -/
theorem walk_of_locate_targetOf {text : String} {place : List String} (hname : c.name = .ofText text)
    (h : t.locate (plan.targetOf c) = .ok place) :
    ∃ base, t.walk current plan.outDir.components = .ok base ∧
      place = base ++ targetNames plan.folders c.name := by
  have hwalk := FileTree.walk_of_locate h
  rw [targetOf, hname, components_target] at hwalk
  rw [hname]
  exact FileTree.exists_of_walk_append hwalk

/-- A place below the output directory keeps what it holds while no code is generated for it. -/
theorem content?_treeAfter {base names : List String} {files : List FilePath}
    (hbase : t.walk current plan.outDir.components = .ok base)
    (hnot : ∀ entry ∈ plan.record t files, ∀ code,
      entry.2 ≠ .generated (names.foldl FilePath.join plan.outDir) code) :
    (plan.treeAfter t files).content? (base ++ names) = t.content? (base ++ names) := by
  induction files generalizing t with
  | nil => rfl
  | cons file rest ih =>
    have hgrows := grows_step plan t file
    have hrest := ih (FileTree.walk_of_grows hgrows hbase)
      fun entry hentry => hnot entry (List.mem_cons_of_mem _ hentry)
    refine hrest.trans ?_
    rcases content?_step plan t file with ⟨-, hsame⟩ | ⟨c, place, hc, -, -, hstep, hplace, hcontent⟩
    · exact hsame _
    rw [hcontent]
    refine if_neg fun heq => ?_
    obtain ⟨base', hbase', rfl⟩ := walk_of_locate_targetOf (name_of_conversion hc) hplace
    obtain rfl : base = base' :=
      Except.ok.inj ((FileTree.walk_of_grows hgrows hbase).symm.trans hbase')
    obtain rfl : names = targetNames plan.folders c.name := List.append_cancel_left heq
    refine hnot (file, (plan.step t file).1) (List.mem_cons_self ..) c.code ?_
    rw [hstep, targetOf, target_eq]

/-- The record of some drawings is cut where one of them stands. -/
theorem exists_of_record_eq {files : List FilePath} {before after : Record} {outcome : Outcome}
    (h : plan.record t files = before ++ (file, outcome) :: after) :
    ∃ rest, files = before.map Prod.fst ++ file :: rest ∧
      outcome = (plan.step (plan.treeAfter t (before.map Prod.fst)) file).1 ∧
      after = plan.record (plan.step (plan.treeAfter t (before.map Prod.fst)) file).2 rest := by
  induction before generalizing t files with
  | nil =>
    cases files with
    | nil => cases h
    | cons first rest =>
      obtain ⟨hentry, hrest⟩ := List.cons.inj h
      obtain ⟨rfl, houtcome⟩ := Prod.mk.inj hentry
      exact ⟨rest, rfl, houtcome.symm, hrest.symm⟩
  | cons entry before ih =>
    cases files with
    | nil => cases h
    | cons first rest =>
      obtain ⟨hentry, hrest⟩ := List.cons.inj h
      obtain ⟨rest, rfl, houtcome, hafter⟩ := ih hrest
      subst hentry
      exact ⟨rest, rfl, houtcome, hafter⟩

/-- Code that is generated is read from its target after the run, if no later drawing generates code for
the same target. -/
theorem read_treeAfter {files : List FilePath} {before after : Record} {path : FilePath}
    {code : String} (h : plan.record t files = before ++ (file, .generated path code) :: after) :
    ∃ c, plan.conversion (plan.treeAfter t (before.map Prod.fst)) file = .ok c ∧
      path = plan.targetOf c ∧ code = c.code ∧
        ((∀ entry ∈ after, ∀ code', entry.2 ≠ .generated path code') →
          (plan.treeAfter t files).read path = .ok (bytesOf c)) := by
  obtain ⟨rest, rfl, houtcome, rfl⟩ := exists_of_record_eq h
  have hfinal : plan.treeAfter t (before.map Prod.fst ++ file :: rest) =
      plan.treeAfter (plan.step (plan.treeAfter t (before.map Prod.fst)) file).2 rest := by
    rw [treeAfter_append]
    rfl
  rw [hfinal]
  rcases content?_step plan (plan.treeAfter t (before.map Prod.fst)) file with
    ⟨hnot, -⟩ | ⟨c, place, hc, -, -, hstep, hplace, hcontent⟩
  · exact absurd houtcome.symm (hnot path code)
  rw [hstep] at houtcome
  obtain ⟨rfl, rfl⟩ := Outcome.generated.inj houtcome
  refine ⟨c, hc, rfl, rfl, fun hlast => ?_⟩
  obtain ⟨base, hbase, rfl⟩ := walk_of_locate_targetOf (name_of_conversion hc) hplace
  have hsaved := (hcontent (base ++ targetNames plan.folders c.name)).trans (if_pos rfl)
  rw [targetOf, target_eq] at hlast
  have hkept := (content?_treeAfter hbase hlast).trans hsaved
  exact FileTree.read_of_content
    (FileTree.locate_of_grows hplace hsaved (grows_treeAfter plan _ rest)) hkept

end BatchPlan

end Cli

end VectorIcon
