import VectorIcon.Number.Numeral
import VectorIcon.Path.Command
import VectorIcon.Path.Error

/-!
# Reading path data

`parse` reads path data from left to right. Blanks and commas may stand between any two tokens, numbers
may run together, and an arc flag is a single digit. After a letter further groups of arguments repeat
its command, with lines after a move.

Every step returns a shorter text, which bounds the reading. All that is consumed before an error is
ASCII, so the number of characters before a letter is also its byte offset.
-/

namespace VectorIcon.Path

open Text Number

/-- A character between tokens: ASCII blanks and the comma. -/
def isSeparator (c : Char) : Bool :=
  c == ' ' || c == '\t' || c == '\n' || c == '\x0c' || c == '\r' || c == ','

/-- The text from its first token on. -/
def skipSeparators (s : List Char) : List Char :=
  s.dropWhile isSeparator

/-- The number at the start of a text, after separators. -/
def scanNumber (s : List Char) : Except Error (Float × List Char) :=
  let s := skipSeparators s
  match scan? s with
  | none => .error (.malformed .expectedNumber (excerpt s))
  | some (n, rest) =>
    match finite? n.toFloat with
    | some v => .ok (v, rest)
    | none =>
      let written := String.ofList (s.take (s.length - rest.length))
      .error (.malformed (.outOfRange written) (excerpt s))

/-- The flag at the start of a text, after separators. -/
def scanFlag (s : List Char) : Except Error (Bool × List Char) :=
  match skipSeparators s with
  | '0' :: rest => .ok (false, rest)
  | '1' :: rest => .ok (true, rest)
  | rest => .error (.malformed .expectedFlag (excerpt rest))

/-- One argument. -/
def scanArgument (slot : Slot) (s : List Char) : Except Error (Argument Float × List Char) :=
  match slot with
  | .number => (scanNumber s).map fun (v, rest) => (.number v, rest)
  | .flag => (scanFlag s).map fun (v, rest) => (.flag v, rest)

/-- The arguments for a list of slots. -/
def scanArguments : List Slot → List Char → Except Error (List (Argument Float) × List Char)
  | [], s => .ok ([], s)
  | slot :: slots, s => do
    let (first, rest) ← scanArgument slot s
    let (others, rest) ← scanArguments slots rest
    return (first :: others, rest)

/-- The command of one group of arguments in a text of the given length. -/
def readGroup (length : Nat) (frame : Frame) (kind : Kind) (s : List Char) :
    Except Error (Command Float × List Char) := do
  let (arguments, rest) ← scanArguments kind.slots s
  match Command.ofArguments? (.draw frame kind) arguments with
  | some command => return (command, rest)
  | none => throw (.unknownCommand '?' (length - rest.length))

/-- A number starts here: a digit, a point, or a sign before one of them. -/
def startsNumber : List Char → Bool
  | c :: rest =>
    isDigit c || c == '.' ||
      ((c == '+' || c == '-') &&
        match rest with
        | d :: _ => isDigit d || d == '.'
        | [] => false)
  | [] => false

theorem length_skipSeparators_le (s : List Char) : (skipSeparators s).length ≤ s.length :=
  length_dropWhile_le _ _

theorem length_lt_of_scanNumber {s rest : List Char} {v : Float}
    (h : scanNumber s = .ok (v, rest)) : rest.length < s.length := by
  unfold scanNumber at h
  dsimp only at h
  split at h
  · simp at h
  next n t hs =>
    split at h
    · obtain ⟨-, rfl⟩ : _ ∧ t = rest := by simpa using h
      exact Nat.lt_of_lt_of_le (length_lt_of_scan? hs) (length_skipSeparators_le s)
    · simp at h

theorem length_lt_of_scanFlag {s rest : List Char} {v : Bool}
    (h : scanFlag s = .ok (v, rest)) : rest.length < s.length := by
  have hle := length_skipSeparators_le s
  unfold scanFlag at h
  split at h
  next t hs =>
    obtain ⟨-, rfl⟩ : _ ∧ t = rest := by simpa using h
    rw [hs, List.length_cons] at hle
    omega
  next t hs =>
    obtain ⟨-, rfl⟩ : _ ∧ t = rest := by simpa using h
    rw [hs, List.length_cons] at hle
    omega
  · simp at h

theorem length_lt_of_scanArgument {slot : Slot} {s rest : List Char} {a : Argument Float}
    (h : scanArgument slot s = .ok (a, rest)) : rest.length < s.length := by
  cases slot with
  | number =>
    unfold scanArgument at h
    cases hn : scanNumber s with
    | error e => simp [hn, Except.map] at h
    | ok p =>
      obtain ⟨-, rfl⟩ : _ ∧ p.2 = rest := by simpa [hn, Except.map] using h
      exact length_lt_of_scanNumber hn
  | flag =>
    unfold scanArgument at h
    cases hn : scanFlag s with
    | error e => simp [hn, Except.map] at h
    | ok p =>
      obtain ⟨-, rfl⟩ : _ ∧ p.2 = rest := by simpa [hn, Except.map] using h
      exact length_lt_of_scanFlag hn

theorem length_add_of_scanArguments {slots : List Slot} {s rest : List Char}
    {as : List (Argument Float)} (h : scanArguments slots s = .ok (as, rest)) :
    rest.length + slots.length ≤ s.length := by
  induction slots generalizing s as with
  | nil =>
    obtain ⟨-, rfl⟩ : _ ∧ s = rest := by simpa [scanArguments] using h
    simp
  | cons slot slots ih =>
    simp only [scanArguments, bind, Except.bind] at h
    split at h
    · simp at h
    next p hp =>
      split at h
      · simp at h
      next q hq =>
        obtain ⟨-, rfl⟩ : _ ∧ q.2 = rest := by simpa [pure, Except.pure] using h
        have h₁ := length_lt_of_scanArgument hp
        have h₂ := ih hq
        simp only [List.length_cons]
        omega

/-- A group of arguments consumes at least one character. -/
theorem length_lt_of_readGroup {length : Nat} {frame : Frame} {kind : Kind} {s rest : List Char}
    {command : Command Float} (h : readGroup length frame kind s = .ok (command, rest)) :
    rest.length < s.length := by
  have hslots : 0 < kind.slots.length := by cases kind <;> simp [Kind.slots]
  simp only [readGroup, bind, Except.bind] at h
  split at h
  · simp at h
  next p hp =>
    have := length_add_of_scanArguments hp
    split at h
    · obtain ⟨-, rfl⟩ : _ ∧ p.2 = rest := by simpa [pure, Except.pure] using h
      omega
    · simp [throw, throwThe, MonadExceptOf.throw] at h

/-- The commands from a place in a text of the given length on; `again` is what a group of arguments
without a letter repeats. -/
def readFrom (length : Nat) (again : Option (Frame × Kind)) (text : List Char) :
    Except Error (List (Command Float)) :=
  match _hs : skipSeparators text with
  | [] => .ok []
  | c :: rest =>
    if isLetter c then
      match Letter.ofChar? c with
      | none => .error (.unknownCommand c (length - (c :: rest).length))
      | some .close => (Command.close :: ·) <$> readFrom length none rest
      | some (.draw frame kind) =>
        match _hg : readGroup length frame kind rest with
        | .error e => .error e
        | .ok (command, rest') => (command :: ·) <$> readFrom length (some (frame, kind.next)) rest'
    else if startsNumber (c :: rest) then
      match again with
      | none => .error (.malformed .missingCommand (excerpt (c :: rest)))
      | some (frame, kind) =>
        match _hg : readGroup length frame kind (c :: rest) with
        | .error e => .error e
        | .ok (command, rest') => (command :: ·) <$> readFrom length (some (frame, kind)) rest'
    else .error (.malformed .unexpectedCharacter (excerpt (c :: rest)))
termination_by text.length
decreasing_by
  all_goals
    have hle := length_skipSeparators_le text
    rw [_hs] at hle
    simp only [List.length_cons] at hle
  · omega
  · have := length_lt_of_readGroup _hg
    omega
  · have := length_lt_of_readGroup _hg
    simp only [List.length_cons] at this
    omega

/-- The commands of path data. -/
def parse (data : String) : Except Error (List (Command Float)) :=
  readFrom data.toList.length none data.toList

end VectorIcon.Path
