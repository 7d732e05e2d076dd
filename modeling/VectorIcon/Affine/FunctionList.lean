import VectorIcon.Number.Numeral
import VectorIcon.Affine.Params

/-!
# Transform lists

A transform list is a sequence of calls such as `translate(4 2) rotate(45)`; whatever stands between
calls is passed over. The rightmost function of the list is done first. A call that names no function,
or whose arguments do not fit, moves nothing and is kept among the skipped ones.
-/

namespace VectorIcon.Affine

open Text

/-- One call of a transform list, as written. -/
structure Call where
  name : List Char
  gap : List Char
  body : List Char
  deriving Repr, DecidableEq

/-- The text of a call. -/
def Call.text (c : Call) : List Char :=
  c.name ++ c.gap ++ '(' :: c.body ++ [')']

/-- The arguments of a call, between blanks and commas. -/
def Call.arguments (c : Call) : List (List Char) :=
  fields (fun x => isBlank x || x == ',') c.body

/-- The call that starts with the letters at the start of a text, and the rest after it. -/
def scanCall? (s : List Char) : Option (Call × List Char) :=
  let name := s.takeWhile isLetter
  let afterName := s.dropWhile isLetter
  match afterName.dropWhile isBlank with
  | '(' :: inner =>
    (cut? ')' inner).map fun (body, rest) => (⟨name, afterName.takeWhile isBlank, body⟩, rest)
  | _ => none

theorem length_lt_of_scanCall? {s rest : List Char} {c : Call}
    (h : scanCall? s = some (c, rest)) : rest.length < s.length := by
  unfold scanCall? at h
  dsimp only at h
  split at h
  next inner hi =>
    obtain ⟨⟨body, rest'⟩, hcut, heq⟩ := Option.map_eq_some_iff.1 h
    obtain ⟨-, rfl⟩ : _ ∧ rest' = rest := by simpa using heq
    have hinner := congrArg List.length (eq_append_of_cut? hcut)
    have h₁ := length_dropWhile_le isBlank (s.dropWhile isLetter)
    have h₂ := length_dropWhile_le isLetter s
    rw [hi, List.length_cons] at h₁
    rw [List.length_append, List.length_cons] at hinner
    omega
  · simp at h

/-- The calls of a text in order. -/
def calls (s : List Char) : List Call :=
  match s with
  | [] => []
  | c :: rest =>
    if isLetter c then
      match _h : scanCall? (c :: rest) with
      | some (call, rest') => call :: calls rest'
      | none => calls (rest.dropWhile isLetter)
    else calls rest
termination_by s.length
decreasing_by
  · exact length_lt_of_scanCall? _h
  · exact Nat.lt_succ_of_le (length_dropWhile_le _ _)
  · simp

section

variable {α : Type} [OfNat α 0] [OfNat α 1] [Add α] [Mul α] [Neg α] [Measure α]

/-- The matrix of a function and its arguments. -/
def functionMatrix? : String → List α → Option (Matrix α)
  | "translate", [x] => some (.translation x 0)
  | "translate", [x, y] => some (.translation x y)
  | "scale", [s] => some (.scaling s s)
  | "scale", [x, y] => some (.scaling x y)
  | "rotate", [angle] => some (.rotation angle)
  | "rotate", [angle, x, y] => some (.rotationAbout angle x y)
  | "matrix", [a, b, c, d, e, f] => some ⟨a, b, c, d, e, f⟩
  | "skewX", [angle] => some (.shearX angle)
  | "skewY", [angle] => some (.shearY angle)
  | _, _ => none

/-- The matrix of a call, with a reading of numbers. -/
def Call.matrix? (read : List Char → Option α) (c : Call) : Option (Matrix α) :=
  (c.arguments.mapM read).bind (functionMatrix? (String.ofList c.name))

/-- A transform list that was read: the composed map and the calls without effect. -/
structure FunctionList (α : Type) where
  matrix : Matrix α
  skipped : List String

/-- The composed map of the calls of a text. -/
def readFunctions (read : List Char → Option α) (text : String) : FunctionList α :=
  let all := calls text.toList
  { matrix := .compose (all.filterMap (Call.matrix? read))
    skipped := (all.filter fun c => (c.matrix? read).isNone).map fun c => String.ofList c.text }

end

/-- The transform list of a text, on doubles. -/
def FunctionList.parse (text : String) : FunctionList Float :=
  readFunctions Number.read? text

/-- The parameters of a transform list. -/
def FunctionList.params (l : FunctionList Float) : Params Float :=
  Params.ofMatrix l.matrix

end VectorIcon.Affine
