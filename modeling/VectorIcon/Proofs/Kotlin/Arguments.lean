import VectorIcon.Proofs.Kotlin.Token

/-!
# Arguments in parentheses

The tokens of a list of arguments are split at the commas outside of inner parentheses, up to the
parenthesis that closes the list. An argument is a `Unit`: its parentheses are balanced and hold all
its commas. So a list of units is given back by its tokens, whatever follows (`arguments_append_inj`).
-/

namespace VectorIcon.Kotlin

/-! ## Units -/

/-- The depth in parentheses after a token; none when the token ends an argument. -/
def deeper (n : Nat) : Token → Option Nat
  | .mark c =>
    if c = '(' then some (n + 1)
    else if c = ')' then (if n = 0 then none else some (n - 1))
    else if c = ',' then (if n = 0 then none else some n)
    else some n
  | _ => some n

/-- The tokens may stand between commas. -/
def IsUnit (ts : List Token) : Prop :=
  ts ≠ [] ∧ ts.foldlM deeper 0 = some 0

instance (ts : List Token) : Decidable (IsUnit ts) :=
  inferInstanceAs (Decidable (_ ∧ _))

theorem deeper_add {n m : Nat} {t : Token} (h : deeper n t = some m) (k : Nat) :
    deeper (n + k) t = some (m + k) := by
  cases t with
  | word s => cases h; rfl
  | literal s => cases h; rfl
  | mark c => grind [deeper]

/-- What is balanced stays so inside of parentheses. -/
theorem foldlM_deeper_add {ts : List Token} {n m : Nat} (h : ts.foldlM deeper n = some m) (k : Nat) :
    ts.foldlM deeper (n + k) = some (m + k) := by
  induction ts generalizing n with
  | nil =>
    cases h
    rfl
  | cons t ts ih =>
    rw [List.foldlM_cons] at h ⊢
    obtain ⟨n', hn', hts⟩ := Option.bind_eq_some_iff.1 h
    rw [deeper_add hn' k]
    exact ih hts

theorem IsUnit.foldlM {ts : List Token} (h : IsUnit ts) (n : Nat) :
    ts.foldlM deeper n = some n := by
  have := foldlM_deeper_add h.2 n
  rwa [Nat.zero_add] at this

theorem IsUnit.append {ts us : List Token} (hts : IsUnit ts) (hus : IsUnit us) :
    IsUnit (ts ++ us) := by
  refine ⟨fun h => hts.1 (List.append_eq_nil_iff.1 h).1, ?_⟩
  rw [List.foldlM_append, hts.2]
  exact hus.2

theorem IsUnit.cons {t : Token} {us : List Token} (ht : IsUnit [t]) (hus : IsUnit us) :
    IsUnit (t :: us) :=
  ht.append hus

theorem isUnit_word (s : String) : IsUnit [.word s] := ⟨List.cons_ne_nil _ _, rfl⟩

theorem isUnit_literal (s : String) : IsUnit [.literal s] := ⟨List.cons_ne_nil _ _, rfl⟩

theorem isUnit_dot : IsUnit [.mark '.'] := by decide

/-- A unit is cut off by a token that ends an argument. -/
theorem IsUnit.append_inj {u v ts us : List Token} {s t : Token} (hu : IsUnit u) (hv : IsUnit v)
    (hs : deeper 0 s = none) (ht : deeper 0 t = none) (h : u ++ s :: ts = v ++ t :: us) :
    u = v ∧ s :: ts = t :: us := by
  have hlonger {u v w : List Token} {s : Token} (hu : IsUnit u) (hv : IsUnit v)
      (hs : deeper 0 s = none) : v ≠ u ++ s :: w := by
    rintro rfl
    have hfold := hv.2
    rw [List.foldlM_append, hu.2] at hfold
    have hnone : (s :: w).foldlM deeper 0 = none := by
      rw [List.foldlM_cons, hs]
      rfl
    cases hnone.symm.trans hfold
  rcases List.append_eq_append_iff.1 h with ⟨w, hw, hrest⟩ | ⟨w, hw, hrest⟩
  · cases w with
    | nil => exact ⟨(hw.trans (List.append_nil u)).symm, hrest⟩
    | cons x w =>
      cases (List.cons.inj hrest).1
      exact absurd hw (hlonger hu hv hs)
  · cases w with
    | nil => exact ⟨hw.trans (List.append_nil v), hrest.symm⟩
    | cons x w =>
      cases (List.cons.inj hrest).1
      exact absurd hw (hlonger hv hu ht)

/-! ## Lists of arguments -/

/-- What follows the first of some arguments. -/
def furtherArguments (trailing : Bool) : List (List Token) → List Token
  | [] => if trailing then [.mark ','] else []
  | u :: rest => .mark ',' :: u ++ furtherArguments trailing rest

/-- Arguments with commas between them, and perhaps one after the last. -/
def separated (trailing : Bool) : List (List Token) → List Token
  | [] => []
  | u :: rest => u ++ furtherArguments trailing rest

/-- Arguments in parentheses. -/
def arguments (trailing : Bool) (l : List (List Token)) : List Token :=
  .mark '(' :: separated trailing l ++ [.mark ')']

theorem foldlM_furtherArguments {trailing : Bool} {l : List (List Token)} (h : ∀ u ∈ l, IsUnit u) :
    (furtherArguments trailing l).foldlM deeper 1 = some 1 := by
  induction l with
  | nil => cases trailing <;> rfl
  | cons u l ih =>
    rw [furtherArguments, List.cons_append, List.foldlM_cons]
    show (u ++ furtherArguments trailing l).foldlM deeper 1 = some 1
    rw [List.foldlM_append, (h u (List.mem_cons_self ..)).foldlM 1]
    exact ih fun v hv => h v (List.mem_cons_of_mem _ hv)

/-- Arguments in parentheses are balanced. -/
theorem isUnit_arguments {trailing : Bool} {l : List (List Token)} (h : ∀ u ∈ l, IsUnit u) :
    IsUnit (arguments trailing l) := by
  refine ⟨List.cons_ne_nil _ _, ?_⟩
  have hinner : (separated trailing l).foldlM deeper 1 = some 1 := by
    cases l with
    | nil => rfl
    | cons u l =>
      rw [separated, List.foldlM_append, (h u (List.mem_cons_self ..)).foldlM 1]
      exact foldlM_furtherArguments fun v hv => h v (List.mem_cons_of_mem _ hv)
  rw [arguments, List.cons_append, List.foldlM_cons]
  show (separated trailing l ++ [Token.mark ')']).foldlM deeper 1 = some 0
  rw [List.foldlM_append, hinner]
  rfl

theorem exists_end_furtherArguments (trailing : Bool) (l : List (List Token)) (ts : List Token) :
    ∃ t us, furtherArguments trailing l ++ Token.mark ')' :: ts = t :: us ∧ deeper 0 t = none := by
  cases l with
  | nil =>
    cases trailing with
    | true => exact ⟨.mark ',', .mark ')' :: ts, rfl, rfl⟩
    | false => exact ⟨.mark ')', ts, rfl, rfl⟩
  | cons u l => exact ⟨.mark ',', _, rfl, rfl⟩

theorem IsUnit.ne_close {u ts us : List Token} (hu : IsUnit u) :
    Token.mark ')' :: ts ≠ u ++ us := by
  intro h
  cases u with
  | nil => exact hu.1 rfl
  | cons t u =>
    rw [List.cons_append] at h
    cases (List.cons.inj h).1
    have hfold := hu.2
    rw [List.foldlM_cons] at hfold
    cases hfold

section

variable {trailing : Bool} {ts us : List Token}

theorem furtherArguments_append_inj {l l' : List (List Token)} (hl : ∀ u ∈ l, IsUnit u)
    (hl' : ∀ u ∈ l', IsUnit u)
    (h : furtherArguments trailing l ++ .mark ')' :: ts =
      furtherArguments trailing l' ++ .mark ')' :: us) : l = l' ∧ ts = us := by
  -- A list that ends is told from one that goes on by the parenthesis after its last comma.
  have hends {u : List Token} {l : List (List Token)} {ts us : List Token} (hu : IsUnit u) :
      furtherArguments trailing [] ++ .mark ')' :: ts ≠
        furtherArguments trailing (u :: l) ++ .mark ')' :: us := by
    intro h
    rw [furtherArguments, furtherArguments, List.cons_append, List.cons_append,
      List.append_assoc] at h
    cases trailing with
    | true => exact hu.ne_close (List.cons.inj h).2
    | false => cases (List.cons.inj h).1
  induction l generalizing l' with
  | nil =>
    cases l' with
    | nil =>
      refine ⟨rfl, ?_⟩
      exact (List.cons.inj (List.append_cancel_left h)).2
    | cons u l' => exact absurd h (hends (hl' u (List.mem_cons_self ..)))
  | cons u l ih =>
    cases l' with
    | nil => exact absurd h.symm (hends (hl u (List.mem_cons_self ..)))
    | cons u' l' =>
      rw [furtherArguments, furtherArguments, List.cons_append, List.cons_append,
        List.cons_append, List.cons_append, List.append_assoc, List.append_assoc] at h
      have hrest := (List.cons.inj h).2
      obtain ⟨t, vs, heq, ht⟩ := exists_end_furtherArguments trailing l ts
      obtain ⟨t', vs', heq', ht'⟩ := exists_end_furtherArguments trailing l' us
      rw [heq, heq'] at hrest
      obtain ⟨rfl, hafter⟩ := (hl u (List.mem_cons_self ..)).append_inj
        (hl' u' (List.mem_cons_self ..)) ht ht' hrest
      rw [← heq, ← heq'] at hafter
      obtain ⟨rfl, hts⟩ := ih (fun v hv => hl v (List.mem_cons_of_mem _ hv))
        (fun v hv => hl' v (List.mem_cons_of_mem _ hv)) hafter
      exact ⟨rfl, hts⟩

/-- Arguments in parentheses are given back by their tokens, and so is what follows them. -/
theorem arguments_append_inj {l l' : List (List Token)} (hl : ∀ u ∈ l, IsUnit u)
    (hl' : ∀ u ∈ l', IsUnit u) (h : arguments trailing l ++ ts = arguments trailing l' ++ us) :
    l = l' ∧ ts = us := by
  rw [arguments, arguments, List.append_assoc, List.append_assoc] at h
  have hinner : separated trailing l ++ .mark ')' :: ts =
      separated trailing l' ++ .mark ')' :: us := (List.cons.inj h).2
  cases l with
  | nil =>
    cases l' with
    | nil => exact ⟨rfl, (List.cons.inj hinner).2⟩
    | cons u' l' =>
      rw [separated, separated, List.append_assoc] at hinner
      exact absurd hinner (hl' u' (List.mem_cons_self ..)).ne_close
  | cons u l =>
    cases l' with
    | nil =>
      rw [separated, separated, List.append_assoc] at hinner
      exact absurd hinner.symm (hl u (List.mem_cons_self ..)).ne_close
    | cons u' l' =>
      -- A comma before each first argument makes the lists further arguments.
      refine @furtherArguments_append_inj trailing _ _ _ _ hl hl' ?_
      rw [furtherArguments, furtherArguments, List.cons_append, List.cons_append]
      exact congrArg (Token.mark ',' :: ·) hinner

theorem arguments_inj {l l' : List (List Token)} (hl : ∀ u ∈ l, IsUnit u) (hl' : ∀ u ∈ l', IsUnit u)
    (h : arguments trailing l = arguments trailing l') : l = l' :=
  (@arguments_append_inj trailing [] [] _ _ hl hl' (congrArg (· ++ []) h)).1

end

end VectorIcon.Kotlin
