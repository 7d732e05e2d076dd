import VectorIcon.Proofs.Name.Words
import VectorIcon.Template.Builtin

/-!
# Declared names

The templates that declare something name it by the icon's own part, as in `ArrowBackIcon`. That name is made
of letters and digits and no keyword, whatever text the icon's name was read from; it is an identifier exactly
when that part does not begin with a digit (`declared_name`). A drawing that is called `3d_rotation` has no
identifier for a name.
-/

namespace VectorIcon.Template

open Text Name

variable {c : Char} {name : String}

/-! ## Identifiers -/

/-- The words that are no names. -/
def keywords : List String :=
  ["as", "break", "class", "continue", "do", "else", "false", "for", "fun", "if", "in", "interface", "is",
    "null", "object", "package", "return", "super", "this", "throw", "true", "try", "typealias", "typeof",
    "val", "var", "when", "while"]

/-- A character that may begin a name. -/
def isNameStart (c : Char) : Bool :=
  isLetter c || c == '_'

/-- A character of names. -/
def isNameChar (c : Char) : Bool :=
  isAlphanumeric c || c == '_'

/-- A name that stands without quotes: characters of names that begin with one that is no digit, and no
keyword. -/
structure IsIdentifier (name : String) : Prop where
  starts : ∃ first ∈ name.toList.head?, isNameStart first = true
  all : ∀ c ∈ name.toList, isNameChar c = true
  not_keyword : name ∉ keywords

/-- A text declares a name: a line begins with the word of a declaration, and after it the name stands and is
not gone on with. -/
def Declares (text word name : String) : Prop :=
  ∃ before after : String, text = before ++ word ++ name ++ after ∧
    (before = "" ∨ before.toList.getLast? = some '\n') ∧
    ∃ c ∈ after.toList.head?, isNameChar c = false

/-- The word of a template's declaration. -/
def declaring? : Builtin → Option String
  | .expression => none
  | .value => some "val "
  | .object => some "object "
  | .composable => some "fun "

theorem isDigit_iff : isDigit c = true ↔ 48 ≤ c.toNat ∧ c.toNat ≤ 57 := by
  simp only [isDigit, Bool.and_eq_true, decide_eq_true_eq]
  exact Iff.rfl

theorem isNameChar_of_isAlphanumeric (h : isAlphanumeric c = true) : isNameChar c = true := by
  rw [isNameChar, h, Bool.true_or]

theorem isNameStart_of_isAlphanumeric (h : isAlphanumeric c = true) :
    isNameStart c = true ↔ isDigit c = false := by
  have hpoint : c ≠ '_' := by
    rintro rfl
    revert h
    decide
  rw [isAlphanumeric_iff] at h
  rw [isNameStart, Bool.or_eq_true, beq_iff_eq, or_iff_left hpoint, isLetter_iff, ← Bool.not_eq_true,
    isDigit_iff]
  omega

theorem isDigit_toUpper (c : Char) : isDigit c.toUpper = isDigit c := by
  rw [Bool.eq_iff_iff, isDigit_iff, isDigit_iff, toNat_toUpper]
  split <;> omega

/-- No keyword ends as the names of icons do. -/
theorem append_icon_not_mem_keywords (part : String) : part ++ "Icon" ∉ keywords := by
  intro h
  have hends : ∀ word ∈ keywords, ¬ "Icon".toList <:+ word.toList := by decide +kernel
  refine hends _ h ?_
  rw [String.toList_append]
  exact List.suffix_append ..

/-! ## Declarations -/

theorem declares_append (before word name mark rest : String)
    (hbefore : before = "" ∨ before.toList.getLast? = some '\n')
    (hmark : ∃ c ∈ mark.toList.head?, isNameChar c = false) :
    Declares (before ++ word ++ name ++ (mark ++ rest)) word name := by
  obtain ⟨c, hc, hend⟩ := hmark
  refine ⟨before, mark ++ rest, rfl, hbefore, c, ?_, hend⟩
  rw [String.toList_append, List.head?_append, Option.mem_def.1 hc]
  rfl

/-- What a body declares, the body declares below its imports. -/
theorem declares_withImports {l : Layout} {imports : List String} {body word : String}
    (h : Declares body word name) : Declares (withImports l imports body) word name := by
  obtain ⟨before, after, rfl, hbefore, hafter⟩ := h
  unfold withImports
  simp only
  split
  · exact ⟨before, after, rfl, hbefore, hafter⟩
  · refine ⟨Kotlin.formatImports imports l.groupImports ++ "\n\n" ++ before, after, ?_, .inr ?_, hafter⟩
    · simp only [String.append_assoc]
    · rcases hbefore with rfl | hbefore
      · rw [String.toList_append, String.toList_append, List.append_assoc]
        exact List.getLast?_append_of_ne_nil _ (by decide)
      · rw [String.toList_append, List.getLast?_append, hbefore]
        rfl

theorem declares_declaration {template : Builtin} {word : String} (l : Layout) (p : Parts)
    (h : declaring? template = some word) :
    Declares (declaration l p template) word (declaredName p) := by
  cases template with
  | expression => cases h
  | value =>
    cases h
    have hdeclares := declares_append "" "val " (declaredName p) ": ImageVector = " p.code (.inl rfl)
      ⟨':', rfl, by decide⟩
    simpa only [declaration, String.append_assoc, String.empty_append] using hdeclares
  | object =>
    cases h
    have hdeclares := declares_append "" "object " (declaredName p) " \x7b"
    rw [declaration, String.intercalate_cons_cons]
    simpa only [String.append_assoc, String.empty_append] using
      hdeclares _ (.inl rfl) ⟨' ', rfl, by decide⟩
  | composable =>
    cases h
    have hdeclares := declares_append ("@Composable" ++ "\n") "fun " (declaredName p) "("
    rw [declaration, String.intercalate_cons_cons, String.intercalate_cons_cons]
    simpa only [String.append_assoc] using hdeclares _ (.inr (by decide)) ⟨'(', rfl, by decide⟩

/-! ## The name that is declared -/

theorem toList_declaredName (p : Parts) :
    (declaredName p).toList = p.name.ownPascal.toList ++ "Icon".toList :=
  String.toList_append ..

theorem head?_ownPascal (text : String) (separator : Char) :
    (Name.ofText text separator).ownPascal.toList.head? =
      some ((firstOfOwn text separator).getD 'U').toUpper := by
  rw [ownPascal, pascalCase, String.toList_ofList, head?_pascal, find?_own]
  rfl

/-- The declared name is an identifier exactly when what the own part begins with is no digit. -/
theorem isIdentifier_declaredName_iff {p : Parts} {text : String} {separator : Char}
    (h : p.name = Name.ofText text separator) :
    IsIdentifier (declaredName p) ↔ ∀ c ∈ firstOfOwn text separator, isDigit c = false := by
  have hword : IsWord isAlphanumeric p.name.ownPascal := h ▸ isWord_ownPascal text separator
  have hhead : (declaredName p).toList.head? = some ((firstOfOwn text separator).getD 'U').toUpper := by
    rw [toList_declaredName, List.head?_append, h, head?_ownPascal]
    rfl
  have hfirst : isAlphanumeric ((firstOfOwn text separator).getD 'U').toUpper = true := by
    rw [h] at hword
    exact hword.all _ (List.mem_of_head? (head?_ownPascal text separator))
  have hstart : isNameStart ((firstOfOwn text separator).getD 'U').toUpper = true ↔
      ∀ c ∈ firstOfOwn text separator, isDigit c = false := by
    rw [isNameStart_of_isAlphanumeric hfirst, isDigit_toUpper]
    cases firstOfOwn text separator with
    | none =>
      refine ⟨fun _ c hc => ?_, fun _ => by decide⟩
      cases hc
    | some c => exact ⟨fun hc d hd => Option.mem_some.1 hd ▸ hc, fun hall => hall c rfl⟩
  rw [← hstart]
  constructor
  · intro hidentifier
    obtain ⟨first, hmem, hstarts⟩ := hidentifier.starts
    rw [hhead] at hmem
    exact Option.mem_some.1 hmem ▸ hstarts
  · intro hstarts
    refine ⟨⟨_, hhead, hstarts⟩, fun c hc => ?_, append_icon_not_mem_keywords _⟩
    have hicon : "Icon".toList.all isNameChar = true := by decide
    rw [toList_declaredName, List.mem_append] at hc
    exact hc.elim (fun hown => isNameChar_of_isAlphanumeric (hword.all c hown))
      (List.all_eq_true.1 hicon c)

/-- Whatever text a name is read from, its own part in the case of `ArrowBack` is a word of letters and
digits that begins with the capital of the first letter or digit of the text's last category that has one. The
built-in templates that make a declaration declare that word with `Icon` after it, which is an identifier
exactly when it does not begin with a digit. -/
theorem declared_name (text : String) (separator : Char) (code : String) (imports : List String)
    (l : Layout) :
    let p : Parts := ⟨code, imports, Name.ofText text separator⟩
    IsWord isAlphanumeric p.name.ownPascal ∧
      p.name.ownPascal.toList.head? = some ((firstOfOwn text separator).getD 'U').toUpper ∧
      (∀ template, ∀ word ∈ declaring? template,
        Declares (Builtin.render template l p) word (p.name.ownPascal ++ "Icon")) ∧
      (IsIdentifier (p.name.ownPascal ++ "Icon") ↔
        ∀ c ∈ firstOfOwn text separator, isDigit c = false) := by
  intro p
  refine ⟨isWord_ownPascal text separator, head?_ownPascal text separator, fun template word hword => ?_,
    isIdentifier_declaredName_iff (p := p) rfl⟩
  exact declares_withImports (declares_declaration l p hword)

/-- The name of the drawing `3d_rotation` begins with a digit, and so does the name that is declared. -/
theorem declared_name_of_digit :
    let p : Parts := ⟨"x", [], Name.ofText "3d_rotation" '.'⟩
    p.name.ownPascal = "3dRotation" ∧ ¬ (∃ c ∈ p.name.ownPascal.toList.head?, isLetter c = true) ∧
      Builtin.render .value {} p = "val 3dRotationIcon: ImageVector = x" ∧
      ¬ IsIdentifier (p.name.ownPascal ++ "Icon") := by
  have hown : (Name.ofText "3d_rotation" '.').ownPascal = "3dRotation" := by decide +kernel
  refine ⟨hown, ?_, ?_, ?_⟩
  · simp only [hown]
    rintro ⟨first, hfirst, hletter⟩
    obtain rfl : '3' = first := Option.some.inj hfirst
    exact absurd hletter (by decide)
  · simp only [Builtin.render, declaration, declaredName, hown]
    decide +kernel
  · simp only [hown]
    rintro ⟨⟨first, hfirst, hstarts⟩, -, -⟩
    obtain rfl : '3' = first := Option.some.inj hfirst
    exact absurd hstarts (by decide)

end VectorIcon.Template
