import VectorIcon.Proofs.Kotlin.Faithful

/-!
# Words among tokens

A word is one of the tokens of a call if and only if it is one of those of an argument, or the name of the
call.
-/

namespace VectorIcon.Kotlin

variable {word label name : String} {ts us : List Token}

/-- The word is one of the tokens of the value of a named argument. -/
def Field.Mentions (f : Field) (word : String) : Prop :=
  ∃ ts, f.value = some ts ∧ .word word ∈ ts

theorem word_mem_furtherArguments {trailing : Bool} {l : List (List Token)} :
    .word word ∈ furtherArguments trailing l ↔ ∃ u ∈ l, .word word ∈ u := by
  induction l with
  | nil => cases trailing <;> simp [furtherArguments]
  | cons u l ih => simp [furtherArguments, ih]

@[simp]
theorem word_mem_arguments {trailing : Bool} {l : List (List Token)} :
    .word word ∈ arguments trailing l ↔ ∃ u ∈ l, .word word ∈ u := by
  cases l with
  | nil => simp [arguments, separated]
  | cons u l => simp [arguments, separated, word_mem_furtherArguments]

/-- A word that is no label is a token of named arguments when it is one of their values. -/
theorem word_mem_fieldTokens {l : List Field} (h : word ∉ l.map Field.label) :
    (∃ u ∈ fieldTokens l, .word word ∈ u) ↔ ∃ f ∈ l, f.Mentions word := by
  have hlabel {f : Field} (hf : f ∈ l) : word ≠ f.label := fun heq => h (heq ▸ List.mem_map_of_mem hf)
  constructor
  · rintro ⟨u, hu, hmem⟩
    obtain ⟨f, hf, hu⟩ := List.mem_flatMap.1 hu
    rw [Field.tokens, Option.mem_toList, Option.map_eq_some_iff] at hu
    obtain ⟨ts, hts, rfl⟩ := hu
    refine ⟨f, hf, ts, hts, ?_⟩
    simpa [hlabel hf] using hmem
  · rintro ⟨f, hf, ts, hts, hmem⟩
    refine ⟨.word f.label :: .mark '=' :: ts, List.mem_flatMap.2 ⟨f, hf, ?_⟩, by simp [hmem]⟩
    rw [Field.tokens, Option.mem_toList, Option.map_eq_some_iff]
    exact ⟨ts, hts, rfl⟩

@[simp]
theorem mentions_given : Field.Mentions ⟨label, some ts⟩ word ↔ .word word ∈ ts := by
  simp [Field.Mentions]

@[simp]
theorem mentions_givenUnless {b : Bool} :
    Field.Mentions ⟨label, givenUnless b ts⟩ word ↔ b = false ∧ .word word ∈ ts := by
  cases b <;> simp [Field.Mentions, givenUnless]

@[simp]
theorem mentions_map {α : Type} {f : α → List Token} {o : Option α} :
    Field.Mentions ⟨label, o.map f⟩ word ↔ ∃ a, o = some a ∧ .word word ∈ f a := by
  simp [Field.Mentions]

theorem word_mem_blockTokens {options : Options} {args : List (List Token)} {body : List Token}
    (hname : word ≠ name) :
    .word word ∈ blockTokens options name args body ↔ (∃ u ∈ args, .word word ∈ u) ∨ .word word ∈ body := by
  have hhead : .word word ∈ headTokens options args ↔ ∃ u ∈ args, .word word ∈ u := by
    unfold headTokens
    cases args with
    | nil => simp
    | cons u args => exact word_mem_arguments
  simp [blockTokens, hname, hhead]

end VectorIcon.Kotlin
