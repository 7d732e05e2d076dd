import VectorIcon.Proofs.Kotlin.Alike
import VectorIcon.Proofs.Kotlin.Lines
import VectorIcon.Proofs.Kotlin.Number

/-!
# Named arguments

An argument may have a name before it and may be left out when it has its default. The names are
different from each other, so that the arguments that are given tell which ones are not
(`fieldTokens_inj`).
-/

namespace VectorIcon.Kotlin

/-- A named argument, with the tokens of its value if it is given. -/
structure Field where
  label : String
  value : Option (List Token)

/-- The tokens of an argument that is given. -/
def Field.tokens (f : Field) : List (List Token) :=
  (f.value.map fun ts => .word f.label :: .mark '=' :: ts).toList

/-- The arguments that are given. -/
def fieldTokens (l : List Field) : List (List Token) :=
  l.flatMap Field.tokens

/-- A value that is given if it is not the default. -/
def givenUnless (isDefault : Bool) (ts : List Token) : Option (List Token) :=
  if isDefault then none else some ts

theorem fieldTokens_ne {label : String} {vs : List Token} {tss : List (List Token)} {l : List Field}
    (hlabel : label ∉ l.map Field.label) :
    (.word label :: .mark '=' :: vs) :: tss ≠ fieldTokens l := by
  intro h
  have hmem := List.mem_flatMap.1 (h ▸ List.mem_cons_self ..)
  obtain ⟨f, hf, hts⟩ := hmem
  rw [Field.tokens, Option.mem_toList, Option.map_eq_some_iff] at hts
  obtain ⟨ws, -, heq⟩ := hts
  obtain ⟨hword, -⟩ := List.cons.inj heq
  rw [← Token.word.inj hword] at hlabel
  exact hlabel (List.mem_map_of_mem hf)

/-- The arguments that are given tell the values of all arguments. -/
theorem fieldTokens_inj {l l' : List Field} (h : fieldTokens l = fieldTokens l')
    (hlabels : l.map Field.label = l'.map Field.label) (hnodup : (l.map Field.label).Nodup) :
    l = l' := by
  induction l generalizing l' with
  | nil => exact (List.map_eq_nil_iff.1 hlabels.symm).symm
  | cons f l ih =>
    cases l' with
    | nil => cases hlabels
    | cons f' l' =>
      obtain ⟨label, value⟩ := f
      obtain ⟨label', value'⟩ := f'
      obtain ⟨hlabel, hrest⟩ := List.cons.inj hlabels
      obtain ⟨hmem, hdistinct⟩ := List.nodup_cons.1 hnodup
      change label = label' at hlabel
      subst hlabel
      rw [fieldTokens, fieldTokens, List.flatMap_cons, List.flatMap_cons] at h
      -- An argument that is given on one side only has its name among the later ones of the other.
      cases value with
      | none =>
        cases value' with
        | none => rw [ih h hrest hdistinct]
        | some vs => exact absurd h.symm (fieldTokens_ne hmem)
      | some vs =>
        cases value' with
        | none =>
          rw [hrest] at hmem
          exact absurd h (fieldTokens_ne hmem)
        | some vs' =>
          obtain ⟨hvs, htail⟩ := List.cons.inj h
          rw [(List.cons.inj (List.cons.inj hvs).2).2, ih htail hrest hdistinct]

/-! ## Units -/

/-- The values that are given are units. -/
inductive HasUnits : List Field → Prop
  | nil : HasUnits []
  | cons {label value l} : (∀ ts, value = some ts → IsUnit ts) → HasUnits l →
    HasUnits (⟨label, value⟩ :: l)

theorem HasUnits.given {label : String} {ts : List Token} {l : List Field} (hts : IsUnit ts)
    (hl : HasUnits l) : HasUnits (⟨label, some ts⟩ :: l) := by
  refine .cons ?_ hl
  intro us h
  cases h
  exact hts

theorem HasUnits.givenUnless {label : String} {ts : List Token} {l : List Field} (b : Bool)
    (hts : IsUnit ts) (hl : HasUnits l) : HasUnits (⟨label, givenUnless b ts⟩ :: l) := by
  cases b with
  | true => exact .cons (fun us h => nomatch h) hl
  | false => exact hl.given hts

theorem HasUnits.map {α : Type} {label : String} {f : α → List Token} {l : List Field}
    (hf : ∀ a, IsUnit (f a)) (o : Option α) (hl : HasUnits l) : HasUnits (⟨label, o.map f⟩ :: l) := by
  cases o with
  | none => exact .cons (fun us h => nomatch h) hl
  | some a => exact hl.given (hf a)

theorem HasUnits.isUnit {l : List Field} (h : HasUnits l) : ∀ u ∈ fieldTokens l, IsUnit u := by
  have hequals : IsUnit [.mark '='] := by decide
  induction h with
  | nil => exact fun u hu => nomatch hu
  | @cons label value l hvalue _ ih =>
    intro u hu
    rw [fieldTokens, List.flatMap_cons, List.mem_append] at hu
    rcases hu with hu | hu
    · rw [Field.tokens, Option.mem_toList, Option.map_eq_some_iff] at hu
      obtain ⟨ts, hts, rfl⟩ := hu
      exact (isUnit_word label).cons (hequals.cons (hvalue ts hts))
    · exact ih u hu

theorem isUnit_numberTokens (v : Float) : IsUnit (numberTokens v) := by
  have hminus : IsUnit [.mark '-'] := by decide
  rcases numberTokens_cases v with h | ⟨w, h, -⟩
  · rw [h]
    exact isUnit_word _
  · rw [h]
    exact hminus.cons (isUnit_word w)

theorem alike_of_numberTokens {v w : Float} (h : numberTokens v = numberTokens w) : Alike v w :=
  (@numberTokens_append_inj v w [] [] (congrArg (· ++ []) h)).1

/-! ## Defaults -/

section

variable {α : Type} {r : α → α → Prop} {f : α → List Token} {a b : α}

/-- A value that is left out when it is a default, and shown otherwise. -/
theorem of_givenUnless_eq (isDefault : α → Bool)
    (hdefault : isDefault a = true → isDefault b = true → r a b) (hf : f a = f b → r a b)
    (h : givenUnless (isDefault a) (f a) = givenUnless (isDefault b) (f b)) : r a b := by
  unfold givenUnless at h
  cases ha : isDefault a with
  | true =>
    cases hb : isDefault b with
    | true => exact hdefault ha hb
    | false =>
      rw [ha, hb] at h
      cases h
  | false =>
    cases hb : isDefault b with
    | true =>
      rw [ha, hb] at h
      cases h
    | false =>
      rw [ha, hb] at h
      exact hf (Option.some.inj h)

theorem eq_of_givenUnless_eq [BEq α] [LawfulBEq α] {d : α} (hf : ∀ a b, f a = f b → a = b)
    (h : givenUnless (a == d) (f a) = givenUnless (b == d) (f b)) : a = b := by
  refine of_givenUnless_eq (· == d) (fun ha hb => ?_) (hf a b) h
  rw [eq_of_beq ha, eq_of_beq hb]

end

/-- A number that is left out when it is equal to a default, as both zeros may be. -/
def numberField (label : String) (v d : Float) : Field :=
  ⟨label, givenUnless (v == d) (numberTokens v)⟩

theorem HasUnits.number (label : String) (v d : Float) {l : List Field} (hl : HasUnits l) :
    HasUnits (numberField label v d :: l) :=
  .givenUnless (v == d) (isUnit_numberTokens v) hl

theorem alike_of_givenUnless_eq {v w d : Float}
    (h : givenUnless (v == d) (numberTokens v) = givenUnless (w == d) (numberTokens w)) :
    Alike v w := by
  refine of_givenUnless_eq (· == d) (fun hv hw => ?_) alike_of_numberTokens h
  exact (floatLiteral_eq_of_beq hv).trans (floatLiteral_eq_of_beq hw).symm

/-! ## Lines of named arguments -/

section

variable {label text : String} {ts : List Token} {lines : List String}

theorem ends_label (h : isWord label = true) : Ends (label ++ " = ") [.word label, .mark '='] := by
  have hequals : Ends " = " [.mark '='] := by decide
  exact (reads_word h).append_ends hequals (by decide) (by decide)

/-- An argument with its name before the first of its lines. -/
theorem argumentReads_labelled (hlabel : Ends text [.word label, .mark '='])
    (h : ArgumentReads lines ts) :
    ArgumentReads (labelled text lines) (.word label :: .mark '=' :: ts) := by
  refine ⟨?_, LinesRead.labelled hlabel h.2 h.1⟩
  cases lines with
  | nil => exact absurd rfl h.1
  | cons line lines => exact List.cons_ne_nil _ _

theorem argumentReads_line {before : String} (hlabel : Ends before [.word label, .mark '='])
    (h : Reads text ts) : ArgumentReads [before ++ text] (.word label :: .mark '=' :: ts) :=
  argumentReads_labelled hlabel (argumentReads_singleton h)

theorem reads_argumentUnless (hlabel : isWord label = true) (h : Reads text ts) (b : Bool) :
    List.Forall₂ ArgumentReads (argumentUnless b label text) (Field.tokens ⟨label, givenUnless b ts⟩) := by
  cases b with
  | true => exact .nil
  | false => exact .cons (argumentReads_line (ends_label hlabel) h) .nil

theorem reads_number (hlabel : isWord label = true) (v d : Float) :
    List.Forall₂ ArgumentReads (argumentUnless (v == d) label (floatLiteral v))
      (numberField label v d).tokens :=
  reads_argumentUnless hlabel (reads_floatLiteral v) (v == d)

end

theorem reads_fields_cons {args rest : List (List String)} {f : Field} {l : List Field}
    (hf : List.Forall₂ ArgumentReads args f.tokens)
    (hl : List.Forall₂ ArgumentReads rest (fieldTokens l)) :
    List.Forall₂ ArgumentReads (args ++ rest) (fieldTokens (f :: l)) :=
  List.rel_append hf hl

theorem reads_fields_singleton {args : List (List String)} {f : Field}
    (hf : List.Forall₂ ArgumentReads args f.tokens) :
    List.Forall₂ ArgumentReads args (fieldTokens [f]) := by
  have h := reads_fields_cons hf (l := []) .nil
  rwa [List.append_nil] at h

end VectorIcon.Kotlin
