import VectorIcon.Text.Blank

/-!
# Cut texts

A beginning and an ending that were put to a text are taken off again. `Lists separator s parts` says that a text
lists parts: separators stand between any two of them, and perhaps at either end. These parts are then its fields
(`fields_of_lists`).
-/

namespace VectorIcon.Text

variable {separator : Char → Bool} {c : Char} {run s : List Char} {parts : List (List Char)}

/-! ## Beginnings and endings -/

theorem after?_append (start s : List Char) : after? start (start ++ s) = some s := by
  rw [after?, if_pos (List.isPrefixOf_iff_prefix.2 (List.prefix_append ..)), List.drop_left]

theorem before?_append (s ending : List Char) : before? ending (s ++ ending) = some s := by
  have hlength : (s ++ ending).length - ending.length = s.length := by
    rw [List.length_append, Nat.add_sub_cancel]
  rw [before?, if_pos (List.isSuffixOf_iff_suffix.2 (List.suffix_append ..)), hlength, List.take_left]

theorem after?_eq_none {rest : List Char} (h : s.head? ≠ some c) : after? (c :: rest) s = none := by
  refine if_neg fun hstart => h ?_
  obtain ⟨t, rfl⟩ := List.isPrefixOf_iff_prefix.1 hstart
  rfl

theorem before?_eq_none (h : c ∉ s) : before? [c] s = none := by
  refine if_neg fun hend => h ?_
  obtain ⟨t, rfl⟩ := List.isSuffixOf_iff_suffix.1 hend
  exact List.mem_append_right _ (List.mem_singleton_self c)

/-! ## Separators -/

theorem fields_append_cons (h : separator c = true) (a b : List Char) :
    fields separator (a ++ c :: b) = fields separator a ++ fields separator b := by
  rw [fields, List.splitOnP_append_cons a b h, List.filter_append]
  rfl

theorem fields_run (hne : run ≠ []) (h : ∀ c ∈ run, separator c = false) : fields separator run = [run] := by
  rw [fields, List.splitOnP_eq_singleton h, List.filter_cons_of_pos (by simpa using hne), List.filter_nil]

/-! ## Listed parts -/

/-- The text lists the parts. -/
inductive Lists (separator : Char → Bool) : List Char → List (List Char) → Prop
  | nil {gap} : (∀ c ∈ gap, separator c = true) → Lists separator gap []
  | last {gap part} : (∀ c ∈ gap, separator c = true) → part ≠ [] → (∀ c ∈ part, separator c = false) →
      Lists separator (gap ++ part) [part]
  | cons {gap part c rest parts} : (∀ c ∈ gap, separator c = true) → part ≠ [] →
      (∀ c ∈ part, separator c = false) → separator c = true → Lists separator rest parts →
      Lists separator (gap ++ (part ++ c :: rest)) (part :: parts)

theorem fields_gap_append {gap : List Char} (h : ∀ c ∈ gap, separator c = true) (s : List Char) :
    fields separator (gap ++ s) = fields separator s := by
  induction gap with
  | nil => rfl
  | cons c gap ih =>
    have hstep := fields_append_cons (h c (List.mem_cons_self ..)) [] (gap ++ s)
    rw [List.nil_append] at hstep
    rw [List.cons_append, hstep, ih fun d hd => h d (List.mem_cons_of_mem _ hd)]
    rfl

/-- The fields of a text are the parts that it lists. -/
theorem fields_of_lists (h : Lists separator s parts) : fields separator s = parts := by
  induction h with
  | nil hgap =>
    have hnil := fields_gap_append hgap []
    rwa [List.append_nil] at hnil
  | last hgap hne hpart => rw [fields_gap_append hgap, fields_run hne hpart]
  | cons hgap hne hpart hc _ ih =>
    rw [fields_gap_append hgap, fields_append_cons hc, fields_run hne hpart, ih, List.singleton_append]

/-! ## Other characters -/

section

variable {f : Char → Char} {p q : Char → Bool} (h : ∀ c, p (f c) = q c)

include h

theorem splitOnP_map (s : List Char) : (s.map f).splitOnP p = (s.splitOnP q).map (List.map f) := by
  induction s with
  | nil => rfl
  | cons c rest ih =>
    rw [List.map_cons, List.splitOnP_cons_eq_if_modifyHead, List.splitOnP_cons_eq_if_modifyHead, h, ih]
    split
    · rfl
    · cases rest.splitOnP q <;> rfl

theorem fields_map (s : List Char) : fields p (s.map f) = (fields q s).map (List.map f) := by
  rw [fields, splitOnP_map h, List.filter_map, fields]
  congr 1
  refine List.filter_congr fun piece _ => ?_
  rw [Function.comp_apply, List.isEmpty_map]

end

end VectorIcon.Text
