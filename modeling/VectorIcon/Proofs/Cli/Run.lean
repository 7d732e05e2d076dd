import VectorIcon.Cli.Run
import VectorIcon.Proofs.Cli.Record

/-!
# The run of a session

The host of a session is a tree of files. A run over a directory that gets past its command line and its
settings is a fold over its drawings, and their outcomes give what is printed, what is reported, and the
number that the run ends with (`run_batch`).
-/

namespace VectorIcon.Cli

variable {current : List String} {s s' : Session current} {plan : BatchPlan} {α β : Type}

theorem run_bind {x : StateM (Session current) α} {a : α} (h : x.run s = (a, s'))
    (f : α → StateM (Session current) β) :
    (x >>= f).run s = (f a).run s' := by
  rw [StateT.run_bind, h]
  rfl

theorem run_readText (path : FilePath) :
    (Session.host.readText path).run s = (s.tree.text path, s) :=
  rfl

theorem run_mapM_readText (paths : List FilePath) :
    (paths.mapM fun path => do return (path, ← Session.host.readText path)).run s =
      (paths.map fun path => (path, s.tree.text path), s) := by
  induction paths with
  | nil => rfl
  | cons path rest ih =>
    have hfirst : (do return (path, ← Session.host.readText path) : StateM (Session current) _).run s =
        ((path, s.tree.text path), s) := run_bind (run_readText path) _
    rw [List.mapM_cons, run_bind hfirst, run_bind ih]
    rfl

theorem run_readTemplates (c : Config) :
    (readTemplates Session.host c).run s = (templatesOf s.tree c, s) :=
  run_bind (run_mapM_readText (templatePaths c)) _

theorem run_convertFile (file : FilePath) :
    (convertFile Session.host plan file).run s = (plan.conversion s.tree file, s) := by
  unfold convertFile BatchPlan.conversion
  rw [run_bind (run_readText file)]
  cases s.tree.text file with
  | error fault => rfl
  | ok text =>
    have htext : (convertText Session.host (plan.options file) text).run s =
        (Conversion.convert (templatesOf s.tree plan.config) (plan.options file) text, s) :=
      run_bind (run_readTemplates _) _
    exact run_bind htext _

/-- The session with an entry of a record. -/
def withEntry (s : Session current) (file : FilePath) (result : Outcome × FileTree current) :
    Session current :=
  { s with
    tree := result.2
    output := s.output ++ result.1.printed
    errors := s.errors ++ result.1.reported file }

/-- An entry is printed or reported, and nothing is said in the other place. -/
theorem withEntry_of_printed {file : FilePath} {result : Outcome × FileTree current}
    (h : result.1.reported file = "") :
    withEntry s file result =
      { s with tree := result.2, output := s.output ++ result.1.printed } := by
  rw [withEntry, h, String.append_empty]

theorem withEntry_of_reported {file : FilePath} {result : Outcome × FileTree current}
    (h : result.1.printed = "") :
    withEntry s file result =
      { s with tree := result.2, errors := s.errors ++ result.1.reported file } := by
  rw [withEntry, h, String.append_empty]

theorem run_place (file : FilePath) (c : Conversion) (summary : Summary) :
    (place Session.host plan file c summary).run s =
      ((plan.settle s.tree c).1.count summary, withEntry s file (plan.settle s.tree c)) := by
  unfold place BatchPlan.settle BatchPlan.targetOf
  dsimp only
  generalize target plan.outDir plan.folders c.name = path
  have hpresent : (Session.host.isPresent path).run s = (s.tree.isPresent path, s) := rfl
  rw [run_bind hpresent]
  by_cases hskip : (s.tree.isPresent path && !plan.overwrite) = true
  · rw [if_pos hskip, if_pos hskip, withEntry_of_printed rfl]
    rfl
  rw [if_neg hskip, if_neg hskip]
  by_cases hdry : plan.dryRun = true
  · rw [if_pos hdry, if_pos hdry, withEntry_of_printed rfl]
    rfl
  rw [if_neg hdry, if_neg hdry]
  have hsave : (Session.host.save path (c.code ++ "\n")).run s =
      ((s.tree.save path (c.code ++ "\n").toUTF8).1,
        { s with tree := (s.tree.save path (c.code ++ "\n").toUTF8).2 }) := rfl
  rw [run_bind hsave]
  cases s.tree.save path (c.code ++ "\n").toUTF8 with
  | mk result t =>
    cases result with
    | ok =>
      rw [withEntry_of_printed rfl]
      rfl
    | error fault =>
      rw [withEntry_of_reported rfl]
      rfl

theorem run_processFile (file : FilePath) (summary : Summary) :
    (processFile Session.host plan summary file).run s =
      ((plan.step s.tree file).1.count summary, withEntry s file (plan.step s.tree file)) := by
  unfold processFile BatchPlan.step
  rw [run_bind (run_convertFile file)]
  cases plan.conversion s.tree file with
  | ok c => exact run_place file c summary
  | error error =>
    dsimp only
    rw [withEntry_of_reported rfl]
    rfl

/-- The session with the entries of some drawings. -/
def withRecord (s : Session current) (plan : BatchPlan) (files : List FilePath) : Session current :=
  { s with
    tree := plan.treeAfter s.tree files
    output := s.output ++ (plan.record s.tree files).printed
    errors := s.errors ++ (plan.record s.tree files).reported }

theorem run_foldlM_processFile (files : List FilePath) (summary : Summary) :
    (files.foldlM (processFile Session.host plan) summary).run s =
      ((plan.record s.tree files).countFrom summary, withRecord s plan files) := by
  induction files generalizing s summary with
  | nil =>
    simp only [withRecord, BatchPlan.record, Record.printed, Record.reported, String.append_empty]
    rfl
  | cons file rest ih =>
    rw [List.foldlM_cons, run_bind (run_processFile file summary), ih]
    simp only [withRecord, BatchPlan.record, Record.printed, Record.reported, withEntry,
      String.append_assoc]
    rfl

theorem run_processAll (files : List FilePath) :
    (processAll Session.host plan files).run s =
      ((plan.record s.tree files).summary, withRecord s plan files) :=
  run_foldlM_processFile files {}

theorem run_ok {x : ExceptT Error (StateM (Session current)) α} {a : α} (h : x.run.run s = (.ok a, s'))
    (f : α → ExceptT Error (StateM (Session current)) β) : (x >>= f).run.run s = (f a).run.run s' := by
  rw [ExceptT.run_bind, run_bind h]

theorem run_error {x : ExceptT Error (StateM (Session current)) α} {error : Error}
    (h : x.run.run s = (.error error, s')) (f : α → ExceptT Error (StateM (Session current)) β) :
    (x >>= f).run.run s = (.error error, s') := by
  rw [ExceptT.run_bind, run_bind h]
  rfl

theorem run_lift {x : StateM (Session current) α} {a : α} (h : x.run s = (a, s'))
    (f : α → ExceptT Error (StateM (Session current)) β) :
    ((liftM x : ExceptT Error (StateM (Session current)) α) >>= f).run.run s = (f a).run.run s' := by
  have hlift : (liftM x : ExceptT Error (StateM (Session current)) α).run.run s = (.ok a, s') :=
    run_bind h fun a => (pure (Except.ok a) : StateM (Session current) (Except Error α))
  rw [run_ok hlift]

/-- Lines as they are printed. -/
def printedLines : List String → String
  | [] => ""
  | line :: rest => line ++ "\n" ++ printedLines rest

/-- What is printed before the drawings are converted. -/
def heading (plan : BatchPlan) (files : List FilePath) : String :=
  printedLines (("Found " ++ toString files.length ++ " SVG files") ::
    if plan.dryRun then ["DRY RUN - no files will be written"] else [])

/-- The session after the drawings of a plan are converted. -/
def carriedOut (s : Session current) (plan : BatchPlan) : Session current :=
  { s with
    tree := plan.treeAfter s.tree (plan.drawings s.tree)
    output := s.output ++ heading plan (plan.drawings s.tree) ++ (plan.outcomes s.tree).printed ++
      printedLines (plan.outcomes s.tree).summary.lines
    errors := s.errors ++ (plan.outcomes s.tree).reported }

theorem run_printLine (line : String) :
    (Session.host.printLine line).run s = ((), { s with output := s.output ++ (line ++ "\n") }) :=
  rfl

theorem run_forM_printLine (lines : List String) (f : Unit → ExceptT Error (StateM (Session current)) β) :
    ((lines.forM fun line =>
        ((@Session.host current).printLine line : ExceptT Error (StateM (Session current)) Unit)) >>=
        f).run.run s =
      (f ()).run.run { s with output := s.output ++ printedLines lines } := by
  induction lines generalizing s with
  | nil =>
    rw [printedLines, String.append_empty]
    rfl
  | cons line rest ih =>
    have hcons : ((line :: rest).forM fun line =>
        ((@Session.host current).printLine line : ExceptT Error (StateM (Session current)) Unit)) =
          ((@Session.host current).printLine line : ExceptT Error (StateM (Session current)) Unit) >>= fun _ =>
            rest.forM fun line => (@Session.host current).printLine line := rfl
    rw [hcons, bind_assoc, run_lift (run_printLine line), ih]
    simp only [printedLines, String.append_assoc]

/-- It is an error when some drawings are not converted. -/
def verdict (r : Record) : Except Error Unit :=
  if 0 < r.summary.failed then .error (.someFailed r.summary.failed) else .ok ()

theorem run_convertAll (files : List FilePath) :
    (convertAll Session.host plan files).run.run s =
      (verdict (plan.record s.tree files),
      { withRecord s plan files with
        output := (withRecord s plan files).output ++
          printedLines (plan.record s.tree files).summary.lines }) := by
  have hlift : ExceptT.lift (processAll (@Session.host current) plan files) =
      (liftM (processAll (@Session.host current) plan files) :
        ExceptT Error (StateM (Session current)) Summary) := rfl
  unfold convertAll verdict
  rw [hlift, run_lift (run_processAll files), run_forM_printLine]
  split <;> rfl

theorem run_carryOut : (carryOut Session.host plan).run.run s =
    (verdict (plan.outcomes s.tree), carriedOut s plan) := by
  have hfiles : (Session.host.filesBelow plan.root).run s = (s.tree.filesBelow plan.root, s) := rfl
  unfold carryOut
  rw [run_lift hfiles]
  by_cases hdry : plan.dryRun = true
  · simp only [if_pos hdry]
    rw [run_lift (run_printLine _), run_lift (run_printLine _), run_convertAll]
    simp only [carriedOut, withRecord, heading, if_pos hdry, printedLines, String.append_assoc,
      String.append_empty]
    rfl
  · simp only [if_neg hdry]
    rw [run_lift (run_printLine _), run_convertAll]
    simp only [carriedOut, withRecord, heading, if_neg hdry, printedLines, String.append_assoc,
      String.append_empty]
    rfl

/-! ## Plans -/

/-- Settings are read, and nothing is changed. -/
theorem exists_run_loadConfig (s : Session current) (a : Arguments) :
    ∃ result, (loadConfig Session.host a).run.run s = (result, s) := by
  unfold loadConfig
  cases a.configFile with
  | none => exact ⟨_, rfl⟩
  | some path =>
    dsimp only
    rw [run_lift (run_readText path)]
    cases s.tree.text path with
    | error fault => cases fault <;> exact ⟨_, rfl⟩
    | ok text =>
      dsimp only
      cases Config.parse? text <;> exact ⟨_, rfl⟩

/-- A plan is made, and nothing is changed. -/
theorem exists_run_planBatch (s : Session current) (a : Arguments) :
    ∃ result, (planBatch Session.host a).run.run s = (result, s) := by
  unfold planBatch
  cases a.inputFile with
  | none => exact ⟨_, rfl⟩
  | some root =>
    have hroot : (Session.host.isDirectory root).run s = (s.tree.isDirectory root, s) := rfl
    dsimp only
    rw [run_lift hroot]
    by_cases hdir : s.tree.isDirectory root = true
    · rw [if_pos hdir]
      obtain ⟨result, hconfig⟩ := exists_run_loadConfig s a
      cases result with
      | error error =>
        rw [run_error hconfig]
        exact ⟨_, rfl⟩
      | ok config =>
        rw [run_ok hconfig]
        exact ⟨_, rfl⟩
    · rw [if_neg hdir]
      exact ⟨_, rfl⟩

/-- The plan of a command line that converts a directory: one that can be read, of a directory that is
there, with settings that can be read. -/
def planOf? (s : Session current) (arguments : List String) : Option BatchPlan :=
  match Arguments.parse arguments with
  | .ok a =>
    if a.command = .batch then ((planBatch Session.host a).run.run s).1.toOption else none
  | .error _ => none

theorem planOf?_of_batch {arguments : List String} {a : Arguments}
    (hparse : Arguments.parse arguments = .ok a) (hcommand : a.command = .batch) :
    planOf? s arguments = ((planBatch Session.host a).run.run s).1.toOption := by
  unfold planOf?
  rw [hparse]
  exact if_pos hcommand

theorem exists_of_planOf?_eq_some {arguments : List String} (h : planOf? s arguments = some plan) :
    ∃ a, Arguments.parse arguments = .ok a ∧ a.command = .batch ∧
      (planBatch Session.host a).run.run s = (.ok plan, s) := by
  unfold planOf? at h
  cases hparse : Arguments.parse arguments with
  | error error =>
    rw [hparse] at h
    cases h
  | ok a =>
    rw [hparse] at h
    dsimp only at h
    split at h
    · next hcommand =>
      obtain ⟨result, hplan⟩ := exists_run_planBatch s a
      rw [hplan] at h
      cases result with
      | error error => cases h
      | ok plan' =>
        cases h
        exact ⟨a, rfl, hcommand, hplan⟩
    · cases h

/-- A command line for a directory that has no plan is refused, and nothing is changed. -/
theorem run_refused {arguments : List String} {a : Arguments}
    (hparse : Arguments.parse arguments = .ok a) (hcommand : a.command = .batch) {error : Error}
    (hplan : ((planBatch Session.host a).run.run s).1 = .error error) :
    (run Session.host arguments).run s =
      (error.exitCode, { s with errors := s.errors ++ (error.message ++ "\n") }) := by
  obtain ⟨result, hresult⟩ := exists_run_planBatch s a
  rw [hresult] at hplan
  obtain rfl : result = .error error := hplan
  have hbatch : (runCommand Session.host a).run.run s = (.error error, s) := by
    unfold runCommand
    rw [hcommand]
    exact run_error hresult _
  unfold run
  rw [hparse, run_bind hbatch]
  rfl

/-- The number that a run ends with. -/
def exitCode (r : Record) : UInt32 :=
  if 0 < r.summary.failed then 1 else 0

/-- The message about drawings that are not converted. -/
def complaint (r : Record) : String :=
  if 0 < r.summary.failed then (Error.someFailed r.summary.failed).message ++ "\n" else ""

/-- A command line that converts a directory ends as its plan is carried out. -/
theorem run_batch {arguments : List String} (h : planOf? s arguments = some plan) :
    (run Session.host arguments).run s =
      (exitCode (plan.outcomes s.tree),
        { carriedOut s plan with
          errors := (carriedOut s plan).errors ++ complaint (plan.outcomes s.tree) }) := by
  obtain ⟨a, hparse, hcommand, hplan⟩ := exists_of_planOf?_eq_some h
  have hbatch : (runCommand Session.host a).run.run s =
      (carryOut Session.host plan).run.run s := by
    unfold runCommand
    rw [hcommand]
    exact run_ok hplan _
  rw [run_carryOut] at hbatch
  unfold run exitCode complaint
  rw [hparse, run_bind hbatch]
  unfold verdict
  by_cases hfailed : 0 < (plan.outcomes s.tree).summary.failed
  · rw [if_pos hfailed, if_pos hfailed, if_pos hfailed]
    rfl
  · rw [if_neg hfailed, if_neg hfailed, if_neg hfailed, String.append_empty]
    rfl

end VectorIcon.Cli
