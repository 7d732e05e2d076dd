import VectorIcon.Cli.Batch
import VectorIcon.Proofs.FileSystem.Path
import VectorIcon.Proofs.Name.Words

/-!
# Where code is written

The file for an icon is below the output directory: its directories are words of small letters, digits and
underscores, and its own name is a word of letters and digits with `.kt` after it (`target_eq`). So its path
has the steps of the output directory and then these names (`components_target`), and its extension is that
of code (`cutExtension_codeName`).
-/

namespace VectorIcon.Cli

open FilePath Name

variable {part own : String}

/-! ## Words as names of files -/

theorem isEntry_of_isSmall (h : IsWord isSmall part) : IsEntry part := by
  have hpoint : '.' ∉ part.toList := fun hmem => absurd (h.all _ hmem) (by decide)
  refine ⟨h.ne_empty, ?_, ?_, fun hmem => absurd (h.all _ hmem) (by decide)⟩
  · intro heq
    exact hpoint (by rw [heq]; exact List.mem_cons_self ..)
  · intro heq
    exact hpoint (by rw [heq]; exact List.mem_cons_self ..)

/-- The name of a file of code. -/
def codeName (own : String) : String := own ++ ".kt"

theorem toList_codeName (own : String) : (codeName own).toList = own.toList ++ ['.', 'k', 't'] :=
  String.toList_append

theorem isEntry_codeName (h : IsWord Text.isAlphanumeric own) : IsEntry (codeName own) := by
  have hlast : (codeName own).toList.getLast? = some 't' := by
    rw [toList_codeName, List.getLast?_append]
    rfl
  constructor
  · rw [toList_codeName]
    exact List.append_ne_nil_of_right_ne_nil _ (List.cons_ne_nil _ _)
  · intro heq
    rw [heq] at hlast
    exact absurd (Option.some.inj hlast) (by decide)
  · intro heq
    rw [heq] at hlast
    exact absurd (Option.some.inj hlast) (by decide)
  · rw [toList_codeName, List.mem_append]
    rintro (hmem | hmem)
    · exact absurd (h.all _ hmem) (by decide)
    · exact absurd hmem (by decide)

/-- No directory of code is named like a file of code. -/
theorem codeName_ne (h : IsWord isSmall part) (own : String) : codeName own ≠ part := by
  rintro rfl
  refine absurd (h.all '.' ?_) (by decide)
  rw [toList_codeName]
  exact List.mem_append_right _ (List.mem_cons_self ..)

theorem cutExtension_codeName (h : IsWord Text.isAlphanumeric own) :
    (cutExtension (codeName own).toList).2 = some ['k', 't'] := by
  rw [cutExtension_eq_some_iff.2 ⟨h.ne_empty, (by decide : '.' ∉ ['k', 't']), toList_codeName own⟩]

/-! ## Targets -/

/-- The directories of the code of an icon below the output directory. -/
def targetFolders (folders : Bool) (name : Name) : List String :=
  if folders then name.namespaceParts.map fun part => String.ofList (Text.lower part.toList) else []

/-- The names of the code of an icon below the output directory. -/
def targetNames (folders : Bool) (name : Name) : List String :=
  targetFolders folders name ++ [codeName name.ownPascal]

theorem target_eq (outDir : FilePath) (folders : Bool) (name : Name) :
    target outDir folders name = (targetNames folders name).foldl join outDir := by
  rw [targetNames, List.foldl_append]
  rfl

theorem isWord_of_mem_targetFolders {folders : Bool} {text : String} {separator : Char}
    (h : part ∈ targetFolders folders (ofText text separator)) : IsWord isSmall part := by
  unfold targetFolders at h
  split at h
  · obtain ⟨category, hcategory, rfl⟩ := List.mem_map.1 h
    exact isWord_lower_of_mem_categories (List.dropLast_subset _ hcategory)
  · cases h

theorem isEntry_of_mem_targetNames {folders : Bool} {text : String} {separator : Char}
    (h : part ∈ targetNames folders (ofText text separator)) : IsEntry part := by
  rcases List.mem_append.1 h with hfolder | hown
  · exact isEntry_of_isSmall (isWord_of_mem_targetFolders hfolder)
  · rw [List.mem_singleton.1 hown]
    exact isEntry_codeName (isWord_ownPascal text separator)

/-- The path of the code of an icon has the steps of the output directory and then its own names. -/
theorem components_target (outDir : FilePath) (folders : Bool) (text : String) (separator : Char) :
    (target outDir folders (ofText text separator)).components =
      outDir.components ++ (targetNames folders (ofText text separator)).map .name := by
  rw [target_eq]
  exact components_below outDir fun _ => isEntry_of_mem_targetNames

end VectorIcon.Cli
