import VectorIcon.Proofs.Name.Capitals
import VectorIcon.Proofs.Name.Whole
import VectorIcon.Template.Custom

/-!
# Names in templates

A template is given the own part of a name as `ArrowBack` and `arrowBack`, and the whole as
`Navigation.ArrowBack`. The whole ends in the own part but for a name without categories
(`full_name_ends_in_icon_name`). A filter changes the case of `ArrowBack` again, which gives the form of the name in
the new case as far as capitals tell its words apart (`case_filters_agree`).
-/

namespace VectorIcon.Template

open Name

variable {l : Layout} {p : Parts} {template s : String} {e : Expr} {v : Value} {f : List Char → List Char}

/-! ## Templates of one output -/

theorem renderCustom_of_output (hread : read? true template = some [.output e])
    (hvalue : evaluate (call maxCalls) [[], iconVariables l p, functions] e = .ok v) :
    renderCustom l template p = .ok v.display := by
  have hrun : runAll (call maxCalls) [[], iconVariables l p, functions] [.output e] =
      .ok (v.display ++ "", [[], iconVariables l p, functions]) := by
    simp only [runAll, run, hvalue]
    rfl
  rw [renderCustom, render, hread]
  show (renderAll [.output e] (iconVariables l p) >>= fun result => .ok result.1) = _
  rw [renderAll, hrun, String.append_empty]
  rfl

theorem evaluate_of_lookup {name : String} (h : (iconVariables l p).lookup name = some v)
    (caller : Caller) : evaluate caller [[], iconVariables l p, functions] (.variable name) = .ok v := by
  rw [evaluate, valueOf, List.findSome?_cons_of_isNone rfl, List.findSome?_cons_of_isSome (by rw [h]; rfl), h]
  rfl

/-- A variable is written as the text that it stands for. -/
theorem renderCustom_of_variable (name : String)
    (hread : read? true template = some [.output (.variable name)])
    (hname : (iconVariables l p).lookup name = some (.text s)) : renderCustom l template p = .ok s :=
  renderCustom_of_output hread (evaluate_of_lookup hname _)

/-- A variable with a filter behind it is written as what the filter makes of this text. -/
theorem renderCustom_of_filter (filter name : String)
    (hread : read? true template = some [.output (.filter filter (.variable name) [])])
    (hname : (iconVariables l p).lookup name = some (.text s))
    (hfilter : ∀ v, applyFilter filter v [] = .ok (onText f v)) :
    renderCustom l template p = .ok (String.ofList (f s.toList)) := by
  refine renderCustom_of_output hread (v := onText f (.text s)) ?_
  rw [evaluate, evaluate_of_lookup hname, evaluateArguments]
  exact hfilter (.text s)

theorem renderCustom_iconName (l : Layout) (p : Parts) :
    renderCustom l "\x7b\x7b icon_name \x7d\x7d" p = .ok (pascalCase p.name.own) :=
  renderCustom_of_variable "icon_name" (by cbv) rfl

/-! ## The whole of a name -/

/-- The whole of a name is the own part below the namespace, as it is written and in the case of
`Navigation.ArrowBack`, exactly when its text has a letter or a digit that is not the separator; and exactly then
what a template writes for the whole ends in what it writes for the own part. For any other text the own part is
the default name and all else is empty. -/
theorem full_name_ends_in_icon_name (text : String) (separator : Char) (code : String)
    (imports : List String) (l : Layout) :
    let n := Name.ofText text separator
    (n.full = under n.namespaceText n.own ↔ HasCategory text separator) ∧
    (n.fullPascal = under n.namespacePascal n.ownPascal ↔ HasCategory text separator) ∧
    (renderCustom l "\x7b\x7b full_name \x7d\x7d" ⟨code, imports, n⟩ = .ok n.fullPascal ∧
      renderCustom l "\x7b\x7b icon_name \x7d\x7d" ⟨code, imports, n⟩ = .ok n.ownPascal ∧
      ((∃ before, n.fullPascal = before ++ n.ownPascal) ↔ HasCategory text separator)) ∧
    (¬ HasCategory text separator → n.own = "UnnamedIcon" ∧ n.full = "" ∧ n.fullPascal = "" ∧
      n.namespaceText = "" ∧ n.namespacePascal = "") := by
  intro n
  have hwhole : renderCustom l "\x7b\x7b full_name \x7d\x7d" ⟨code, imports, n⟩ = .ok n.fullPascal :=
    renderCustom_of_variable "full_name" (by cbv) rfl
  exact ⟨full_eq_under_iff text separator, fullPascal_eq_under_iff text separator,
    ⟨hwhole, renderCustom_iconName l ⟨code, imports, n⟩, exists_fullPascal_eq_append_iff text separator⟩,
    full_of_not_hasCategory⟩

/-- Of a text without letters and digits the own part is left, but no whole. -/
theorem full_name_of_points :
    let n := Name.ofText "..." '.'
    n.full ≠ under n.namespaceText n.own ∧ n.fullPascal ≠ under n.namespacePascal n.ownPascal ∧
      renderCustom {} "\x7b\x7b full_name \x7d\x7d" ⟨"x", [], n⟩ = .ok "" ∧
      renderCustom {} "\x7b\x7b icon_name \x7d\x7d" ⟨"x", [], n⟩ = .ok "UnnamedIcon" := by
  refine ⟨?_, ?_, ?_, ?_⟩ <;> decide +kernel

/-! ## Filters for the case -/

/-- What the filters for the case make of `ArrowBack` in a template is the form of the own part in that case, as far
as capitals tell its words apart: for `ArrowBack` and `arrowBack` exactly when the words keep their capitals, and
for `arrow_back` exactly when they are found again. -/
theorem case_filters_agree (l : Layout) (p : Parts) :
    let own := p.name.own
    renderCustom l "\x7b\x7b icon_name \x7d\x7d" p = .ok (pascalCase own) ∧
    renderCustom l "\x7b\x7b icon \x7d\x7d" p = .ok (camelCase own) ∧
    renderCustom l "\x7b\x7b icon_name | pascal_case \x7d\x7d" p = .ok (pascalCase (pascalCase own)) ∧
    renderCustom l "\x7b\x7b icon_name | camel_case \x7d\x7d" p = .ok (camelCase (pascalCase own)) ∧
    renderCustom l "\x7b\x7b icon_name | snake_case \x7d\x7d" p = .ok (snakeCase (pascalCase own)) ∧
    (pascalCase (pascalCase own) = pascalCase own ↔ KeepsCapitals own.toList) ∧
    (camelCase (pascalCase own) = camelCase own ↔ KeepsCapitals own.toList) ∧
    (snakeCase (pascalCase own) = snakeCase own ↔ KeepsWords own.toList) := by
  intro own
  have hpascal : (pascalCase own).toList = pascal own.toList := String.toList_ofList
  refine ⟨renderCustom_iconName l p, renderCustom_of_variable "icon" (by cbv) rfl,
    renderCustom_of_filter "pascal_case" "icon_name" (by cbv) rfl fun _ => rfl,
    renderCustom_of_filter "camel_case" "icon_name" (by cbv) rfl fun _ => rfl,
    renderCustom_of_filter "snake_case" "icon_name" (by cbv) rfl fun _ => rfl, ?_, ?_, ?_⟩
  · rw [← pascal_pascal_iff, pascalCase, hpascal, pascalCase, String.ofList_inj]
  · rw [← camel_pascal_iff, camelCase, hpascal, camelCase, String.ofList_inj]
  · rw [← snake_pascal_iff, snakeCase, hpascal, snakeCase, String.ofList_inj]

/-- Capitals do not tell the words of `a_b` apart, nor those of `arrow_2`, which keep their capitals. -/
theorem case_filters_of_initials :
    let p : Parts := ⟨"x", [], Name.ofText "a_b" '.'⟩
    let q : Parts := ⟨"x", [], Name.ofText "arrow_2" '.'⟩
    (pascalCase (pascalCase p.name.own) ≠ pascalCase p.name.own ∧
      camelCase (pascalCase p.name.own) ≠ camelCase p.name.own ∧
      snakeCase (pascalCase p.name.own) ≠ snakeCase p.name.own) ∧
    (renderCustom {} "\x7b\x7b icon_name | camel_case \x7d\x7d" p = .ok "ab" ∧
      renderCustom {} "\x7b\x7b icon \x7d\x7d" p = .ok "aB") ∧
    renderCustom {} "\x7b\x7b icon_name | snake_case \x7d\x7d" q = .ok "arrow2" ∧
      snakeCase q.name.own = "arrow_2" := by
  refine ⟨⟨?_, ?_, ?_⟩, ⟨?_, ?_⟩, ?_, ?_⟩ <;> decide +kernel

end VectorIcon.Template
