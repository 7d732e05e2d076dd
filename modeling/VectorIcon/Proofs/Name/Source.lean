import VectorIcon.Conversion
import VectorIcon.Proofs.Kotlin.Escaping
import VectorIcon.Proofs.Svg.DocumentOrder
import VectorIcon.Proofs.Text.Blank

/-!
# Where names come from

A name that is given comes first, then the identifier of the document, then the stem of the file, then the
default name (`named_by_source`). What is given counts also when it is blank, and so does the stem. An
identifier that reads like the default name counts as none, so that a file goes before it.
-/

namespace VectorIcon

open Text

/-- A text without any character but blanks. -/
def IsBlank (text : String) : Prop :=
  ∀ c ∈ text.toList, isBlank c = true

-- Through the characters of the text: the other instance goes through all characters that there are.
instance (text : String) : Decidable (IsBlank text) :=
  List.decidableBAll (fun c => isBlank c = true) text.toList

variable {text given : String} {file : FilePath} {id : Option String}

/-! ## Blanks -/

/-- A file names an icon alike with a blank name and with none. -/
theorem ofFile_of_isBlank (h : IsBlank given) (file : FilePath) :
    Name.ofFile file (some given) = Name.ofFile file none := by
  have hnone : ((some given).map fun name => trim name.toList).filter (fun name => !name.isEmpty) = none := by
    rw [Option.map_some, trim_of_isBlanks h]
    rfl
  rw [Name.ofFile, Name.ofFile, hnone]
  rfl

/-! ## Documents -/

namespace Svg

/-- The identifier of a document: that of its root, else of the first path that has one. -/
def documentId? (root : Markup.Element) : Option String :=
  (id? root).or ((root.descendants.filter fun e => e.name == "path").findSome? id?)

theorem documentName_eq (root : Markup.Element) :
    documentName root = (documentId? root).getD defaultName :=
  rfl

end Svg

/-! ## Conversions -/

namespace Conversion

variable {files : FilePath → Except FileFault String} {o : Options} {c : Conversion}

/-- The texts that can name an icon, in the order in which they are asked for. -/
def sources (o : Options) (id : Option String) : List String :=
  o.name.toList ++ id.toList ++ (o.file.map Name.stemText).toList

/-- The first of these texts that is not blank, or else the default name. -/
def firstSource (o : Options) (id : Option String) : String :=
  ((sources o id).find? fun text => ¬ IsBlank text).getD Svg.defaultName

/-- The text that names an icon: the first of these texts, blank or not, but without an identifier that reads
like the default name. -/
def nameText (o : Options) (id : Option String) : String :=
  (sources o (id.filter (· ≠ Svg.defaultName))).head?.getD Svg.defaultName

theorem filter_of_ne (h : id ≠ some Svg.defaultName) : id.filter (· ≠ Svg.defaultName) = id := by
  cases id with
  | none => rfl
  | some text => exact Option.filter_some_pos (decide_eq_true fun heq => h (congrArg some heq))

theorem nameOf_eq (o : Options) (id : Option String) :
    nameOf o (id.getD Svg.defaultName) = .ofText (nameText o id) := by
  obtain ⟨name, file, _, _, _⟩ := o
  cases name with
  | some name => rfl
  | none =>
    by_cases hid : id = some Svg.defaultName
    · subst hid
      cases file <;> rfl
    · rw [nameText, filter_of_ne hid]
      cases id with
      | none => cases file <;> rfl
      | some text =>
        have hne : text ≠ Svg.defaultName := fun heq => hid (congrArg some heq)
        simp [nameOf, sources, hne]

theorem not_isBlank_defaultName : ¬ IsBlank Svg.defaultName := by
  decide +kernel

theorem not_isBlank_firstSource (o : Options) (id : Option String) : ¬ IsBlank (firstSource o id) := by
  unfold firstSource
  cases hfound : (sources o id).find? fun text => ¬ IsBlank text with
  | none => exact not_isBlank_defaultName
  | some text =>
    have htext := List.find?_some hfound
    exact of_decide_eq_true htext

theorem firstSource_of_head? (h : (sources o id).head? = some text) (htext : ¬ IsBlank text) :
    firstSource o id = text := by
  obtain ⟨rest, hsources⟩ := List.head?_eq_some_iff.1 h
  rw [firstSource, hsources, List.find?_cons_of_pos (by simpa using htext), Option.getD_some]

/-- The first text is the first one that is not blank exactly when it is not blank itself, and not that of a
file in the place of an identifier that reads like the default name. -/
theorem nameText_eq_firstSource_iff (o : Options) (id : Option String) :
    nameText o id = firstSource o id ↔
      ¬ IsBlank (nameText o id) ∧
        (o.name = none → id = some Svg.defaultName → nameText o id = Svg.defaultName) := by
  constructor
  · intro heq
    refine ⟨heq ▸ not_isBlank_firstSource o id, fun hname hid => heq.trans ?_⟩
    exact firstSource_of_head? (by rw [sources, hname, hid]; rfl) not_isBlank_defaultName
  · rintro ⟨hblank, hdefault⟩
    cases hname : o.name with
    | some name =>
      have htext : nameText o id = name := by rw [nameText, sources, hname]; rfl
      rw [htext] at hblank ⊢
      exact (firstSource_of_head? (by rw [sources, hname]; rfl) hblank).symm
    | none =>
      by_cases hid : id = some Svg.defaultName
      · rw [hdefault hname hid]
        exact (firstSource_of_head? (by rw [sources, hname, hid]; rfl) not_isBlank_defaultName).symm
      · rw [nameText, filter_of_ne hid] at hblank ⊢
        cases hhead : (sources o id).head? with
        | none =>
          rw [firstSource, List.head?_eq_none_iff.1 hhead]
          rfl
        | some text =>
          rw [hhead, Option.getD_some] at hblank
          exact (firstSource_of_head? hhead hblank).symm

/-- The icon of a conversion is the one of its drawing, named by the text of its name. -/
theorem exists_of_convert (h : convert files o text = .ok c) :
    ∃ drawing, Svg.parse o.mode text = .ok drawing ∧ c.name = nameOf o drawing.icon.name ∧
      c.icon = { drawing.icon with name := c.name.raw } := by
  simp only [convert, bind, Except.bind] at h
  split at h
  · cases h
  next drawing hdrawing =>
    obtain ⟨result, hparse, rfl⟩ : ∃ result, Svg.parse o.mode text = .ok result ∧ result = drawing := by
      cases hparse : Svg.parse o.mode text with
      | error error =>
        rw [hparse] at hdrawing
        cases hdrawing
      | ok result =>
        rw [hparse] at hdrawing
        exact ⟨result, rfl, Except.ok.inj hdrawing⟩
    refine ⟨result, hparse, ?_⟩
    split at h
    · cases h
    · split at h
      · cases h
        exact ⟨rfl, rfl⟩
      · split at h
        · cases h
        · cases h
          exact ⟨rfl, rfl⟩

/-- An icon is named by the first text that there is, and its code by the same one. This text is the first one
that is not blank unless it is blank, as a given name or the stem of a file can be, or comes from a file in the
place of an identifier that reads like the default name. A name that is resolved with a file alone is not taken
from a blank text that is given. -/
theorem named_by_source (h : convert files o text = .ok c) :
    ∃ root, Markup.parse text = .ok root ∧
      let name := nameText o (Svg.documentId? root)
      c.name = .ofText name ∧ c.icon.name = name ∧
      (∃ rest, Kotlin.builderLines o.config.layout (.ofEntries []) c.icon =
        "ImageVector.Builder(" ::
          (o.config.layout.indent ++ ("name = " ++ Kotlin.stringLiteral name ++ ",")) :: rest) ∧
      (name = firstSource o (Svg.documentId? root) ↔
        ¬ IsBlank name ∧
          (o.name = none → Svg.documentId? root = some Svg.defaultName → name = Svg.defaultName)) ∧
      ∀ given file, IsBlank given → Name.ofFile file (some given) = Name.ofFile file none := by
  obtain ⟨drawing, hparse, hname, hicon⟩ := exists_of_convert h
  obtain ⟨root, hroot, hread⟩ : ∃ root, Markup.parse text = .ok root ∧ Svg.read o.mode root = .ok drawing := by
    unfold Svg.parse at hparse
    cases hroot : Markup.parse text with
    | error error =>
      rw [hroot] at hparse
      cases hparse
    | ok root =>
      rw [hroot] at hparse
      exact ⟨root, rfl, hparse⟩
  have hown : drawing.icon.name = (Svg.documentId? root).getD Svg.defaultName := by
    rw [Svg.icon_of_read hread]
    exact Svg.documentName_eq root
  rw [hown, nameOf_eq] at hname
  have hraw : c.icon.name = nameText o (Svg.documentId? root) := by
    rw [hicon, hname]
    rfl
  exact ⟨root, hroot, hname, hraw, hraw ▸ Kotlin.exists_builderLines_eq _ _ _, nameText_eq_firstSource_iff o _,
    fun given file hblank => ofFile_of_isBlank hblank file⟩

/-- No template files are there. -/
def noFiles : FilePath → Except FileFault String :=
  fun _ => .error .missing

/-- The identifier of a path goes before the stem of a file. -/
theorem named_by_source_path :
    ∃ c, convert noFiles { file := some ⟨"icons/arrow-left.svg"⟩ }
        "<svg id=\" \"><path d=\"M0 0\"/><path id=\" heart\" d=\"M0 0h1\"/></svg>" = .ok c ∧
      c.name = .ofText "heart" ∧ c.icon.name = "heart" := by
  generalize ho : ({ file := some ⟨"icons/arrow-left.svg"⟩ } : Options) = o
  generalize htext : "<svg id=\" \"><path d=\"M0 0\"/><path id=\" heart\" d=\"M0 0h1\"/></svg>" = text
  have hconvert : (convert noFiles o text).toOption.isSome = true := by
    rw [← ho, ← htext]
    decide +kernel
  have hsource : ((Markup.parse text).toOption.map fun root => nameText o (Svg.documentId? root)) =
      some "heart" := by
    rw [← ho, ← htext]
    decide +kernel
  cases hc : convert noFiles o text with
  | error error =>
    rw [hc] at hconvert
    cases hconvert
  | ok c =>
    obtain ⟨root, hroot, hname, hicon, -⟩ := named_by_source hc
    rw [hroot] at hsource
    have hheart : nameText o (Svg.documentId? root) = "heart" := Option.some.inj hsource
    rw [hheart] at hname hicon
    exact ⟨c, rfl, hname, hicon⟩

/-- The name of the icon of a text, where it has one, and the text that it should be named by. -/
def namings (o : Options) (text : String) : Option (String × String) := do
  let c ← (convert noFiles o text).toOption
  let root ← (Markup.parse text).toOption
  return (c.icon.name, firstSource o (Svg.documentId? root))

/-- A blank name goes before the identifier of a document, the stem of a file before an identifier that reads
like the default name, and a file without a stem before the default name. -/
theorem blank_name_goes_first :
    namings { name := some "  " } "<svg id=\"heart\"/>" = some ("  ", "heart") ∧
      namings { file := some ⟨"home.svg"⟩ } "<svg id=\"UnnamedIcon\"/>" = some ("home", "UnnamedIcon") ∧
      namings { file := some ⟨".."⟩ } "<svg/>" = some ("", "UnnamedIcon") := by
  refine ⟨?_, ?_, ?_⟩ <;> decide +kernel

end Conversion

end VectorIcon
