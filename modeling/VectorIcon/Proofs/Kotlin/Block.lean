import VectorIcon.Proofs.Kotlin.Command

/-!
# Blocks as tokens

A block has a name, perhaps arguments, and a body between braces. Its body is a sequence of calls or of
blocks, each of which begins with a word, so that the brace after the last of them ends the sequence
(`sequence_append_inj`).
-/

namespace VectorIcon.Kotlin

open Icon

/-! ## Sequences up to a brace -/

/-- A sequence of items that begin with words goes on up to the brace that closes it. -/
theorem sequence_append_inj {α : Type} {f : α → List Token} {r : α → α → Prop} {l l' : List α}
    {ts us : List Token} (hstart : ∀ a, ∃ s rest, f a = .word s :: rest)
    (hf : ∀ a ∈ l, ∀ b ts us, f a ++ ts = f b ++ us → r a b ∧ ts = us)
    (h : l.flatMap f ++ .mark '}' :: ts = l'.flatMap f ++ .mark '}' :: us) :
    List.Forall₂ r l l' ∧ ts = us := by
  have hends {a : α} {vs ws : List Token} : Token.mark '}' :: vs ≠ f a ++ ws := by
    intro h
    obtain ⟨s, rest, hs⟩ := hstart a
    rw [hs] at h
    cases (List.cons.inj h).1
  induction l generalizing l' with
  | nil =>
    cases l' with
    | nil => exact ⟨.nil, (List.cons.inj h).2⟩
    | cons b l' =>
      rw [List.flatMap_cons, List.append_assoc] at h
      exact absurd h hends
  | cons a l ih =>
    cases l' with
    | nil =>
      rw [List.flatMap_cons, List.append_assoc] at h
      exact absurd h.symm hends
    | cons b l' =>
      rw [List.flatMap_cons, List.flatMap_cons, List.append_assoc, List.append_assoc] at h
      obtain ⟨hab, hrest⟩ := hf a (List.mem_cons_self ..) b _ _ h
      obtain ⟨hl, hts⟩ := ih (fun c hc => hf c (List.mem_cons_of_mem _ hc)) hrest
      exact ⟨.cons hab hl, hts⟩

theorem linesRead_map {α : Type} {f : α → String} {g : α → List Token} (h : ∀ a, Reads (f a) (g a))
    (l : List α) : LinesRead (l.map f) (l.flatMap g) := by
  induction l with
  | nil => exact .nil
  | cons a l ih => exact .cons (h a) ih

/-! ## Blocks -/

/-- Arguments in parentheses, unless there are none. -/
def headTokens (options : Options) (args : List (List Token)) : List Token :=
  if args.isEmpty then [] else arguments options.trailingCommas args

def blockTokens (options : Options) (name : String) (args : List (List Token))
    (body : List Token) : List Token :=
  .word name :: headTokens options args ++ .mark '{' :: (body ++ [.mark '}'])

section

variable {options : Options} {name : String}

theorem linesRead_block {args : List (List String)} {tss : List (List Token)} {body : List String}
    {us : List Token} (hname : isWord name = true) (hargs : List.Forall₂ ArgumentReads args tss)
    (hbody : LinesRead body us) :
    LinesRead (block options (blockHead options name args) body)
      (blockTokens options name tss us) := by
  have hopen : Reads " \x7b" [.mark '{'] := by decide
  have hclose : Reads "\x7d" [.mark '}'] := by decide
  have hhead : LinesRead (blockHead options name args)
      (.word name :: headTokens options tss ++ [.mark '{']) := by
    unfold blockHead headTokens
    cases hargs with
    | nil => exact .singleton ((reads_word hname).append_reads hopen (by decide))
    | cons harg hargs =>
      have hcall := LinesRead.call (ends_indent options) (reads_word hname) (.cons harg hargs)
      exact hcall.endedWith (List.cons_ne_nil _ _) hopen (by decide)
  have hall := (hhead.append (hbody.nested (ends_indent options))).append (.singleton hclose)
  have htokens : .word name :: headTokens options tss ++ [.mark '{'] ++ us ++ [.mark '}'] =
      blockTokens options name tss us := by
    simp only [blockTokens, List.append_assoc, List.cons_append, List.nil_append]
  rw [htokens] at hall
  exact hall

/-- A block tells its name and its arguments, and its body is left with its brace. -/
theorem blockTokens_append_inj {name' : String} {args args' : List (List Token)}
    {body body' ts us : List Token} (hargs : ∀ u ∈ args, IsUnit u) (hargs' : ∀ u ∈ args', IsUnit u)
    (h : blockTokens options name args body ++ ts = blockTokens options name' args' body' ++ us) :
    name = name' ∧ args = args' ∧ body ++ .mark '}' :: ts = body' ++ .mark '}' :: us := by
  unfold blockTokens at h
  simp only [List.cons_append, List.append_assoc, List.nil_append] at h
  obtain ⟨hname, hrest⟩ := List.cons.inj h
  refine ⟨Token.word.inj hname, ?_⟩
  unfold headTokens at hrest
  cases args with
  | nil =>
    cases args' with
    | nil => exact ⟨rfl, (List.cons.inj hrest).2⟩
    | cons u args' => cases (List.cons.inj hrest).1
  | cons u args =>
    cases args' with
    | nil => cases (List.cons.inj hrest).1
    | cons u' args' =>
      obtain ⟨heq, hbody⟩ := arguments_append_inj hargs hargs' hrest
      exact ⟨heq, (List.cons.inj hbody).2⟩

end

end VectorIcon.Kotlin
