import VectorIcon.Proofs.Cli.Run
import VectorIcon.Proofs.Name.Division

/-!
# Directories of drawings and directories of code

The name of an icon is made of the names of the directories that its drawing is in and of the stem of the
drawing, with points between them, and it is taken apart at points again. So a name that a point divides
becomes more than one category, and the code is where the drawing is exactly when no name is divided
(`targets_mirror`).
-/

namespace VectorIcon.Cli

open FilePath Name BatchPlan

variable {current : List String} {t : FileTree current} {plan : BatchPlan} {root file path : FilePath}
  {folders names : List String} {stem : String} {outcome : Outcome}

/-! ## Where a drawing is -/

/-- A drawing in some directories below another directory, by its name without the extension. -/
structure IsDrawingAt (root : FilePath) (folders : List String) (stem : String) (file : FilePath) :
    Prop where
  stem_ne : stem ≠ ""
  exists_extension : ∃ extension, Text.lower extension.toList = "svg".toList ∧
    file.components = root.components ++ (folders ++ [stem ++ "." ++ extension]).map .name

theorem fileName?_of_components {steps : List Component} {name : String}
    (h : file.components = steps ++ (folders ++ [name]).map .name) : file.fileName? = some name := by
  rw [fileName?, h, List.map_append, ← List.append_assoc, List.map_singleton, List.getLast?_concat]

theorem exists_of_isDrawing (h : isDrawing file = true) :
    ∃ extension, file.extension? = some extension ∧ Text.lower extension.toList = "svg".toList := by
  unfold isDrawing at h
  cases hextension : file.extension? with
  | none =>
    rw [hextension] at h
    cases h
  | some extension =>
    rw [hextension] at h
    exact ⟨extension, rfl, eq_of_beq h⟩

/-- Every drawing below a directory is in some directories below it. -/
theorem exists_isDrawingAt (hnames : ∀ entry ∈ t.files, ∀ name ∈ entry.1, IsEntry name)
    (h : file ∈ plan.drawings t) : ∃ folders stem, IsDrawingAt plan.root folders stem file := by
  obtain ⟨hbelow, hdrawing⟩ := mem_drawings_iff.1 h
  obtain ⟨-, lower, hne, hsteps, -⟩ := FileTree.exists_of_mem_filesBelow hnames hbelow
  obtain ⟨folders, name, rfl⟩ := (List.eq_nil_or_concat' lower).resolve_left hne
  obtain ⟨extension, hextension, hlower⟩ := exists_of_isDrawing hdrawing
  obtain ⟨stem, hstem, hname⟩ := exists_of_extension? hextension
  obtain rfl : name = stem ++ "." ++ extension :=
    Option.some.inj ((fileName?_of_components hsteps).symm.trans hname)
  exact ⟨folders, stem, hstem, extension, hlower, hsteps⟩

theorem IsDrawingAt.stem?_eq (h : IsDrawingAt root folders stem file) : file.stem? = some stem := by
  obtain ⟨hstem, extension, hextension, hsteps⟩ := h
  refine stem?_of_fileName? (fileName?_of_components hsteps) hstem fun hmem => ?_
  have hlower : '.'.toLower ∈ Text.lower extension.toList := List.mem_map_of_mem hmem
  rw [hextension] at hlower
  exact absurd hlower (by decide)

theorem IsDrawingAt.iconName_eq (h : IsDrawingAt root folders stem file) :
    iconName root file = dotted (folders ++ [stemText file]) := by
  have hstem := h.stem?_eq
  obtain ⟨-, extension, -, hsteps⟩ := h
  have hfolders : (file.components.drop root.components.length).dropLast = folders.map .name := by
    rw [hsteps, List.drop_left, List.map_append, List.map_singleton, List.dropLast_concat]
  have htext : (folders.map Component.name).map Component.text = folders := by
    rw [List.map_map]
    exact List.map_id'' (fun _ => rfl) folders
  rw [iconName, hfolders, htext, hstem]
  rfl

/-- An icon has the categories of the names of its drawing. -/
theorem IsDrawingAt.categories_iconName (h : IsDrawingAt root folders stem file) :
    (ofText (iconName root file)).categories = categoriesOf (folders ++ [stem]) := by
  rw [h.iconName_eq, categories_dotted, List.flatMap_append, List.flatMap_singleton,
    categories_stemText h.stem?_eq, categoriesOf, List.flatMap_append, List.flatMap_singleton]

/-! ## Names of code -/

/-- A name in small letters. -/
def lowered (name : String) : String :=
  String.ofList (Text.lower name.toList)

/-- The names of the code of an icon below the output directory, by the categories of the icon. -/
def codeNames (nested : Bool) (categories : List String) : List String :=
  (if nested then categories.dropLast.map lowered else []) ++
    [codeName (pascalCase (categories.getLast?.getD Svg.defaultName))]

/-- The names of the code of a drawing below the output directory, when each is made of one name of the
drawing. -/
def mirrorNames (nested : Bool) (folders : List String) (stem : String) : List String :=
  (if nested then folders.map fun folder => lowered (cleaned folder) else []) ++
    [codeName (pascalCase (cleaned stem))]

theorem targetNames_eq (nested : Bool) (text : String) :
    targetNames nested (ofText text) = codeNames nested (ofText text).categories := by
  rfl

theorem codeNames_map_cleaned (nested : Bool) (folders : List String) (stem : String) :
    codeNames nested ((folders ++ [stem]).map cleaned) = mirrorNames nested folders stem := by
  rw [codeNames, List.map_append, List.map_singleton, List.dropLast_concat, List.getLast?_concat,
    List.map_map]
  rfl

theorem codeName_inj {a b : String} (h : codeName a = codeName b) : a = b :=
  (String.append_left_inj _).1 h

/-- The names of code mirror those of the drawing exactly when no name that counts is divided. -/
theorem codeNames_eq_mirrorNames_iff (nested : Bool)
    (h : ∀ name ∈ folders ++ [stem], HasAlphanumeric name) :
    codeNames nested (categoriesOf (folders ++ [stem])) = mirrorNames nested folders stem ↔
      ∀ name ∈ if nested then folders ++ [stem] else [stem], IsUndivided name.toList := by
  have hstem : HasAlphanumeric stem := h stem (by simp)
  cases nested with
  | true =>
    rw [if_pos rfl]
    constructor
    · intro heq
      refine isUndivided_of_length_le h ?_
      have hlength := congrArg List.length heq
      simp only [codeNames, mirrorNames, if_true, List.length_append, List.length_map, List.length_dropLast,
        List.length_singleton] at hlength
      rw [List.length_append, List.length_singleton]
      omega
    · intro hnames
      rw [categoriesOf_of_isUndivided h hnames, codeNames_map_cleaned]
  | false =>
    rw [codeNames, mirrorNames, getLast?_categoriesOf folders hstem]
    simp only [Bool.false_eq_true, if_false, List.nil_append, List.mem_singleton, forall_eq,
      List.cons.injEq, and_true]
    rw [← pascalCase_last_iff hstem]
    exact ⟨codeName_inj, congrArg codeName⟩

theorem isEntry_of_mem_codeNames {nested : Bool} {part : String}
    (h : part ∈ codeNames nested (categoriesOf names)) : IsEntry part := by
  rw [categoriesOf, ← categories_dotted, ← targetNames_eq] at h
  exact isEntry_of_mem_targetNames h

theorem isEntry_of_mem_mirrorNames {nested : Bool} {part : String}
    (h : ∀ name ∈ folders ++ [stem], HasAlphanumeric name)
    (hpart : part ∈ mirrorNames nested folders stem) : IsEntry part := by
  have hclean : ∀ word ∈ (folders ++ [stem]).map cleaned, IsClean word.toList := by
    intro word hword
    obtain ⟨name, hname, rfl⟩ := List.mem_map.1 hword
    exact (h name hname).isClean_cleaned
  rw [← codeNames_map_cleaned, ← categories_dotted_of_isClean hclean, ← targetNames_eq] at hpart
  exact isEntry_of_mem_targetNames hpart

/-! ## Targets -/

/-- The file that the code of a drawing belongs in, if the drawing is converted. -/
def Outcome.target? : Outcome → Option FilePath
  | .failed _ => none
  | .present path | .planned path | .generated path _ | .unwritten path _ => some path

theorem exists_of_target? (h : (plan.step t file).1.target? = some path) :
    ∃ c, plan.conversion t file = .ok c ∧ path = plan.targetOf c := by
  rcases step_cases plan t file with ⟨error, -, hstep⟩ | ⟨c, hc, hstep⟩
  · rw [hstep] at h
    cases h
  refine ⟨c, hc, ?_⟩
  rw [hstep] at h
  rcases settle_cases plan t c with ⟨-, -, hsettle⟩ |
    ⟨-, ⟨-, hsettle⟩ | ⟨-, ⟨fault, -, hsettle⟩ | ⟨-, hsettle⟩⟩⟩
  all_goals
    rw [hsettle] at h
    exact (Option.some.inj h).symm

/-- Every drawing below a directory is in some directories and has a stem. Its code belongs where the
categories of all these names say; and if all of them have letters or digits, this is the file that mirrors the
drawing, with one directory for each directory, exactly when no point divides a name that counts. -/
theorem targets_mirror (hnames : ∀ entry ∈ t.files, ∀ name ∈ entry.1, IsEntry name)
    (hentry : (file, outcome) ∈ plan.outcomes t) :
    (∃ folders stem, IsDrawingAt plan.root folders stem file) ∧
    ∀ folders stem path, IsDrawingAt plan.root folders stem file → outcome.target? = some path →
      path = (codeNames plan.folders (categoriesOf (folders ++ [stem]))).foldl join plan.outDir ∧
      ((∀ name ∈ folders ++ [stem], HasAlphanumeric name) →
        (path = (mirrorNames plan.folders folders stem).foldl join plan.outDir ↔
          ∀ name ∈ if plan.folders then folders ++ [stem] else [stem], IsUndivided name.toList)) := by
  obtain ⟨before, after, hrecord⟩ := List.append_of_mem hentry
  obtain ⟨rest, hdrawings, houtcome, -⟩ := exists_of_record_eq hrecord
  have hfile : file ∈ plan.drawings t := by
    rw [hdrawings]
    exact List.mem_append_right _ (List.mem_cons_self ..)
  refine ⟨exists_isDrawingAt hnames hfile, fun folders stem path hplace hpath => ?_⟩
  rw [houtcome] at hpath
  obtain ⟨c, hc, rfl⟩ := exists_of_target? hpath
  have htarget : plan.targetOf c =
      (codeNames plan.folders (categoriesOf (folders ++ [stem]))).foldl join plan.outDir := by
    rw [targetOf, name_of_conversion hc, target_eq, targetNames_eq, hplace.categories_iconName]
  refine ⟨htarget, fun hletters => ?_⟩
  rw [htarget, ← codeNames_eq_mirrorNames_iff plan.folders hletters]
  exact ⟨eq_of_foldl_join_eq (fun _ => isEntry_of_mem_codeNames)
    (fun _ => isEntry_of_mem_mirrorNames hletters), congrArg (List.foldl join plan.outDir)⟩

/-! ## Two drawings -/

/-- A drawing in a directory, and one whose stem has a point. -/
def nested : Session where
  tree := {
    files := [(["in", "icon.min.svg"], "<svg/>".toUTF8),
      (["in", "navigation", "arrow-back.svg"], "<svg/>".toUTF8)] }
  input := .empty

/-- How it is told where their code belongs. -/
def nestedPlan : BatchPlan where
  root := ⟨"in"⟩
  outDir := ⟨"."⟩
  folders := true
  dryRun := true
  overwrite := false
  template := .value
  config := {}
  mode := .strict

theorem targets_nested :
    (nestedPlan.outcomes nested.tree).map (fun entry => (entry.1, entry.2.target?)) =
    [(⟨"in/icon.min.svg"⟩, some ⟨"./icon/Min.kt"⟩),
      (⟨"in/navigation/arrow-back.svg"⟩, some ⟨"./navigation/ArrowBack.kt"⟩)] := by
  have hdrawings : nestedPlan.drawings nested.tree =
      [⟨"in/icon.min.svg"⟩, ⟨"in/navigation/arrow-back.svg"⟩] :=
    drawings_of_pairwise (by decide +kernel) (by decide +kernel)
  rw [outcomes, hdrawings]
  decide +kernel

theorem exists_of_mem_targets
    (h : (file, some path) ∈ (plan.outcomes t).map fun entry => (entry.1, entry.2.target?)) :
    ∃ outcome, (file, outcome) ∈ plan.outcomes t ∧ outcome.target? = some path := by
  obtain ⟨⟨_, outcome⟩, hentry, heq⟩ := List.mem_map.1 h
  obtain ⟨rfl, htarget⟩ := Prod.mk.inj heq
  exact ⟨outcome, hentry, htarget⟩

/-- The code of the drawing in a directory belongs in a directory of the same name. -/
theorem targets_mirror_arrow : ∃ outcome,
    ((⟨"in/navigation/arrow-back.svg"⟩ : FilePath), outcome) ∈ nestedPlan.outcomes nested.tree ∧
      IsDrawingAt nestedPlan.root ["navigation"] "arrow-back" ⟨"in/navigation/arrow-back.svg"⟩ ∧
      outcome.target? =
        some ((mirrorNames nestedPlan.folders ["navigation"] "arrow-back").foldl join nestedPlan.outDir) := by
  obtain ⟨outcome, hentry, htarget⟩ := exists_of_mem_targets
    (targets_nested ▸ List.mem_cons_of_mem _ (List.mem_cons_self ..))
  have hplace :
      IsDrawingAt nestedPlan.root ["navigation"] "arrow-back" ⟨"in/navigation/arrow-back.svg"⟩ :=
    ⟨by decide, "svg", by decide +kernel, by decide +kernel⟩
  have hletters : ∀ name ∈ ["navigation"] ++ ["arrow-back"], HasAlphanumeric name := by decide +kernel
  obtain ⟨-, hmirror⟩ := targets_mirror (by decide +kernel) hentry
  obtain ⟨-, hiff⟩ := hmirror _ _ _ hplace htarget
  refine ⟨outcome, hentry, hplace, ?_⟩
  rw [htarget, ← (hiff hletters).2 ?_]
  intro name hname
  refine isUndivided_of_not_mem ?_
  revert name
  decide

/-- A point in a stem opens a directory for the code. -/
theorem target_of_divided_stem : ∃ outcome,
    planOf? nested ["batch", "in", "--dry-run"] = some nestedPlan ∧
      ((⟨"in/icon.min.svg"⟩ : FilePath), outcome) ∈ nestedPlan.outcomes nested.tree ∧
      IsDrawingAt nestedPlan.root [] "icon.min" ⟨"in/icon.min.svg"⟩ ∧ HasAlphanumeric "icon.min" ∧
      outcome.target? = some ⟨"./icon/Min.kt"⟩ ∧
      (mirrorNames nestedPlan.folders [] "icon.min").foldl join nestedPlan.outDir = ⟨"./IconMin.kt"⟩ := by
  obtain ⟨outcome, hentry, htarget⟩ := exists_of_mem_targets (targets_nested ▸ List.mem_cons_self ..)
  exact ⟨outcome, by rfl, hentry, ⟨by decide, "svg", by decide +kernel, by decide +kernel⟩,
    by decide +kernel, htarget, by decide +kernel⟩

end VectorIcon.Cli
