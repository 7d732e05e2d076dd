import Mathlib.Tactic.Ring
import VectorIcon.Affine.FunctionList

/-!
# Transform lists are read call by call

A list that is written as calls, with other text around them, is read as exactly these calls
(`calls_spelled`). Those that name no function, or whose arguments do not fit, are skipped
(`isSome_matrix?`). In exact arithmetic the map of the list does its calls one after the other, the last
one first (`apply_compose`).
-/

namespace VectorIcon.Affine

open Text

/-- A name of letters, blanks, and a body that ends at the first closing parenthesis. -/
structure Call.IsWritten (c : Call) : Prop where
  name_ne_nil : c.name ≠ []
  name : ∀ x ∈ c.name, isLetter x = true
  gap : ∀ x ∈ c.gap, isBlank x = true
  body : ')' ∉ c.body

instance (c : Call) : Decidable c.IsWritten :=
  decidable_of_iff ((!c.name.isEmpty && c.name.all isLetter && c.gap.all isBlank &&
      !c.body.contains ')') = true) <| by
    simp only [Bool.and_eq_true, Bool.not_eq_true', List.isEmpty_eq_false_iff, List.all_eq_true,
      List.contains_eq_mem, decide_eq_false_iff_not]
    exact ⟨fun h => ⟨h.1.1.1, h.1.1.2, h.1.2, h.2⟩, fun h => ⟨⟨⟨h.1, h.2⟩, h.3⟩, h.4⟩⟩

/-- A text without letters and parentheses, which may stand around calls. -/
def IsFiller (s : List Char) : Prop :=
  ∀ x ∈ s, isLetter x = false ∧ x ≠ '(' ∧ x ≠ ')'

instance (s : List Char) : Decidable (IsFiller s) :=
  decidable_of_iff ((s.all fun x => !isLetter x && x != '(' && x != ')') = true) <| by
    simp [IsFiller, and_assoc]

/-- The text of calls: what stands before them, and each of them with what stands after it. -/
def spelled (lead : List Char) (items : List (Call × List Char)) : List Char :=
  lead ++ items.flatMap fun item => item.1.text ++ item.2

/-- The functions with the numbers of arguments that they take. -/
def signatures : List (String × Nat) :=
  [("translate", 1), ("translate", 2), ("scale", 1), ("scale", 2), ("rotate", 1), ("rotate", 3),
    ("matrix", 6), ("skewX", 1), ("skewY", 1)]

/-- The call is one of a function, and its arguments are finite numbers. -/
def Call.isAccepted (c : Call) : Bool :=
  signatures.contains (String.ofList c.name, c.arguments.length) &&
    c.arguments.all fun argument => (Number.read? argument).isSome

/-- The exact number of an argument, for a value of each double. -/
def exactly {α : Type} (value : Float → α) (argument : List Char) : Option α :=
  (Number.read? argument).map value

/-! ## Reading calls -/

theorem isLetter_of_isBlank {c : Char} (h : isBlank c = true) : isLetter c = false := by
  have hle {a b : Char} : a ≤ b ↔ a.toNat ≤ b.toNat := Iff.rfl
  have ha : 'a'.toNat = 97 := rfl
  have hz : 'z'.toNat = 122 := rfl
  have hA : 'A'.toNat = 65 := rfl
  have hZ : 'Z'.toNat = 90 := rfl
  simp only [isBlank, Bool.or_eq_true, Bool.and_eq_true, decide_eq_true_eq, beq_iff_eq] at h
  simp only [isLetter, Bool.or_eq_false_iff, Bool.and_eq_false_iff, decide_eq_false_iff_not, hle]
  omega

/-- A call at the start of a text is scanned whole. -/
theorem scanCall?_text {c : Call} (h : c.IsWritten) (rest : List Char) :
    scanCall? (c.text ++ rest) = some (c, rest) := by
  let inner := c.body ++ ')' :: rest
  let tail := c.gap ++ '(' :: inner
  have htext : c.text ++ rest = c.name ++ tail := by
    simp [Call.text, tail, inner]
  have hstart : tail.takeWhile isLetter = [] ∧ tail.dropWhile isLetter = tail := by
    cases hgap : c.gap with
    | nil => simp [tail, hgap, isLetter]
    | cons x gap =>
      have hx : isLetter x = false := isLetter_of_isBlank (h.gap x (by simp [hgap]))
      simp [tail, hgap, hx]
  have hname : (c.name ++ tail).takeWhile isLetter = c.name := by
    rw [List.takeWhile_append_of_pos h.name, hstart.1, List.append_nil]
  have hafter : (c.name ++ tail).dropWhile isLetter = tail := by
    rw [List.dropWhile_append_of_pos h.name, hstart.2]
  have hgap : tail.takeWhile isBlank = c.gap := by
    simp [tail, List.takeWhile_append_of_pos h.gap, isBlank]
  have hinner : tail.dropWhile isBlank = '(' :: inner := by
    simp [tail, List.dropWhile_append_of_pos h.gap, isBlank]
  unfold scanCall?
  simp only [htext, hname, hafter, hgap, hinner]
  rw [cut?_append h.body]
  rfl

theorem calls_filler {s : List Char} (h : IsFiller s) (rest : List Char) :
    calls (s ++ rest) = calls rest := by
  induction s with
  | nil => rfl
  | cons x s ih =>
    rw [List.cons_append, calls, if_neg, ih fun y hy => h y (List.mem_cons_of_mem _ hy)]
    rw [(h x List.mem_cons_self).1]
    exact Bool.false_ne_true

theorem calls_text {c : Call} (h : c.IsWritten) (rest : List Char) :
    calls (c.text ++ rest) = c :: calls rest := by
  have hscan := scanCall?_text h rest
  cases hname : c.name with
  | nil => exact absurd hname h.name_ne_nil
  | cons x name =>
    have hx : isLetter x = true := h.name x (by simp [hname])
    obtain ⟨s, hs⟩ : ∃ s, c.text ++ rest = x :: s := ⟨_, by rw [Call.text, hname]; rfl⟩
    rw [hs] at hscan ⊢
    rw [calls, if_pos hx]
    split
    · next call rest' hcall =>
      rw [hscan] at hcall
      cases hcall
      rfl
    · next hnone =>
      rw [hscan] at hnone
      cases hnone

/-- The calls of a text are those that it is written with. -/
theorem calls_spelled {lead : List Char} {items : List (Call × List Char)} (hlead : IsFiller lead)
    (h : ∀ item ∈ items, item.1.IsWritten ∧ IsFiller item.2) :
    calls (spelled lead items) = items.map Prod.fst := by
  rw [spelled, calls_filler hlead]
  induction items with
  | nil => rw [List.flatMap_nil, calls, List.map_nil]
  | cons item items ih =>
    obtain ⟨⟨hcall, hfiller⟩, hrest⟩ := List.forall_mem_cons.1 h
    rw [List.flatMap_cons, List.append_assoc, calls_text hcall, calls_filler hfiller, ih hrest,
      List.map_cons]

/-! ## Calls that are skipped -/

section

variable {α : Type}

theorem mapM_exactly (value : Float → α) (pieces : List (List Char)) :
    pieces.mapM (exactly value) = (pieces.mapM Number.read?).map (List.map value) := by
  induction pieces with
  | nil => rfl
  | cons piece pieces ih =>
    rw [List.mapM_cons, List.mapM_cons, ih, exactly]
    cases Number.read? piece with
    | none => rfl
    | some v => cases pieces.mapM Number.read? <;> rfl

variable [OfNat α 0] [OfNat α 1] [Add α] [Mul α] [Neg α] [Measure α]

/-- A function has a matrix when it has one of the signatures. -/
theorem isSome_functionMatrix? {name : String} {args : List α} :
    (functionMatrix? name args).isSome = true ↔ (name, args.length) ∈ signatures := by
  constructor
  · intro h
    unfold functionMatrix? at h
    split at h
    case h_10 => cases h
    all_goals simp [signatures]
  · intro h
    simp only [signatures, List.mem_cons, Prod.mk.injEq, List.not_mem_nil, or_false] at h
    rcases h with ⟨rfl, h⟩ | ⟨rfl, h⟩ | ⟨rfl, h⟩ | ⟨rfl, h⟩ | ⟨rfl, h⟩ | ⟨rfl, h⟩ | ⟨rfl, h⟩ |
      ⟨rfl, h⟩ | ⟨rfl, h⟩
    · match args, h with | [_], _ => rfl
    · match args, h with | [_, _], _ => rfl
    · match args, h with | [_], _ => rfl
    · match args, h with | [_, _], _ => rfl
    · match args, h with | [_], _ => rfl
    · match args, h with | [_, _, _], _ => rfl
    · match args, h with | [_, _, _, _, _, _], _ => rfl
    · match args, h with | [_], _ => rfl
    · match args, h with | [_], _ => rfl

theorem mapM_read?_cases (pieces : List (List Char)) :
    (∃ vs, pieces.mapM Number.read? = some vs ∧ vs.length = pieces.length ∧
      (pieces.all fun piece => (Number.read? piece).isSome) = true) ∨
    (pieces.mapM Number.read? = none ∧
      (pieces.all fun piece => (Number.read? piece).isSome) = false) := by
  induction pieces with
  | nil => exact .inl ⟨[], rfl, rfl, rfl⟩
  | cons piece pieces ih =>
    rw [List.mapM_cons, List.all_cons]
    cases Number.read? piece with
    | none => exact .inr ⟨rfl, rfl⟩
    | some v =>
      rcases ih with ⟨vs, hvs, hlength, hall⟩ | ⟨hnone, hall⟩
      · exact .inl ⟨v :: vs, by rw [hvs]; rfl, congrArg (· + 1) hlength, hall⟩
      · exact .inr ⟨by rw [hnone]; rfl, hall⟩

/-- Whether a call is skipped does not depend on the values of its arguments. -/
theorem isSome_matrix? (value : Float → α) (c : Call) :
    (c.matrix? (exactly value)).isSome = c.isAccepted := by
  rw [Call.matrix?, mapM_exactly, Call.isAccepted]
  rcases mapM_read?_cases c.arguments with ⟨vs, hvs, hlength, hall⟩ | ⟨hnone, hall⟩
  · rw [hvs, hall, Bool.and_true, ← hlength, Bool.eq_iff_iff, List.contains_iff_mem]
    show (functionMatrix? (String.ofList c.name) (vs.map value)).isSome = true ↔ _
    rw [isSome_functionMatrix?, List.length_map]
  · rw [hnone, hall, Bool.and_false]
    rfl

end

/-! ## Composition -/

section

variable {α : Type} [CommRing α]

namespace Matrix

theorem apply_identity (p : α × α) : (identity : Matrix α).apply p = p := by
  simp [identity, apply]

theorem apply_andThen (m n : Matrix α) (p : α × α) :
    (m.andThen n).apply p = n.apply (m.apply p) := by
  refine Prod.ext ?_ ?_ <;> simp only [andThen, apply] <;> ring

/-- Maps that are composed are done one after the other, the last one first. -/
theorem apply_compose (steps : List (Matrix α)) (p : α × α) :
    (compose steps).apply p = steps.foldr apply p := by
  have hfold (m : Matrix α) :
      (steps.foldl (fun m step => step.andThen m) m).apply p = m.apply (steps.foldr apply p) := by
    induction steps generalizing m with
    | nil => rfl
    | cons step steps ih => rw [List.foldl_cons, ih, apply_andThen, List.foldr_cons]
  rw [compose, hfold, apply_identity]

end Matrix

end

theorem exactly_id : exactly (id : Float → Float) = Number.read? := by
  funext argument
  exact Option.map_id_apply

/-- A list that is written as calls is read as these calls. Those that are not accepted are skipped, and in
exact arithmetic the others are done one after the other, the last one first. -/
theorem readFunctions_spelled {lead : List Char} {items : List (Call × List Char)}
    (hlead : IsFiller lead) (h : ∀ item ∈ items, item.1.IsWritten ∧ IsFiller item.2) :
    let all := items.map Prod.fst
    let text := String.ofList (spelled lead items)
    calls text.toList = all ∧
    (FunctionList.parse text).skipped =
      (all.filter fun c => !c.isAccepted).map (fun c => String.ofList c.text) ∧
    ∀ {α : Type} [CommRing α] [Measure α] (value : Float → α),
      (∀ c : Call, (c.matrix? (exactly value)).isSome = c.isAccepted) ∧
      ∀ p, (readFunctions (exactly value) text).matrix.apply p =
        all.foldr (fun c q => (c.matrix? (exactly value)).elim q (·.apply q)) p := by
  intro all text
  have hcalls : calls text.toList = all := by
    rw [String.toList_ofList]
    exact calls_spelled hlead h
  refine ⟨hcalls, ?_, fun {α} _ _ value => ⟨isSome_matrix? value, fun p => ?_⟩⟩
  · have hskipped (c : Call) : (c.matrix? Number.read?).isNone = !c.isAccepted := by
      rw [← isSome_matrix? id, exactly_id, Option.not_isSome]
    simp only [FunctionList.parse, readFunctions, hcalls, hskipped]
  · rw [readFunctions, hcalls, Matrix.apply_compose, List.foldr_filterMap]
    congr 1
    funext c q
    cases c.matrix? (exactly value) <;> rfl

/-- The move by one and two. -/
def moveCall : Call := ⟨"translate".toList, [], "1 2".toList⟩

/-- A call that names no function. -/
def turnCall : Call := ⟨"turn".toList, [' '], "3".toList⟩

/-- The stretching to the double. -/
def doubleCall : Call := ⟨"scale".toList, [], "2".toList⟩

theorem readFunctions_mixed :
    (FunctionList.parse "translate(1 2)turn (3), scale(2)").skipped = ["turn (3)"] ∧
      ∀ {α : Type} [CommRing α] [Measure α] (value : Float → α) (p : α × α),
        (readFunctions (exactly value) "translate(1 2)turn (3), scale(2)").matrix.apply p =
          (Matrix.translation (value 1) (value 2)).apply
            ((Matrix.scaling (value 2) (value 2)).apply p) := by
  have hone : Number.read? ['1'] = some 1 := by decide +kernel
  have htwo : Number.read? ['2'] = some 2 := by decide +kernel
  have hwritten : ∀ item ∈ [(moveCall, []), (turnCall, [',', ' ']), (doubleCall, [])],
      item.1.IsWritten ∧ IsFiller item.2 :=
    List.forall_mem_cons.2 ⟨by decide, List.forall_mem_cons.2 ⟨by decide,
      List.forall_mem_singleton.2 (by decide)⟩⟩
  obtain ⟨-, hskipped, hmatrix⟩ := @readFunctions_spelled [] _ nofun hwritten
  refine ⟨hskipped.trans (by decide +kernel), fun value p => ((hmatrix value).2 p).trans ?_⟩
  have hmove : moveCall.matrix? (exactly value) = some (.translation (value 1) (value 2)) := by
    show ([['1'], ['2']].mapM (exactly value)).bind (functionMatrix? "translate") = _
    simp [exactly, hone, htwo, functionMatrix?]
  have hturn : turnCall.matrix? (exactly value) = none := by
    have hrejected : turnCall.isAccepted = false := by decide +kernel
    rwa [← isSome_matrix? value, Option.isSome_eq_false_iff, Option.isNone_iff_eq_none] at hrejected
  have hdouble : doubleCall.matrix? (exactly value) = some (.scaling (value 2) (value 2)) := by
    show ([['2']].mapM (exactly value)).bind (functionMatrix? "scale") = _
    simp [exactly, htwo, functionMatrix?]
  simp [hmove, hturn, hdouble]

end VectorIcon.Affine
