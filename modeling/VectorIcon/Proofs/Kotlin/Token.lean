import VectorIcon.Kotlin.Literal

/-!
# Tokens of generated code

`tokensOf` cuts code into words (identifiers and numbers), string literals and marks; blanks stand
between tokens and mean nothing. A number goes on after a point only when a digit follows, and in a
literal a backslash takes the next character along.

The tokens of a text that is put together are those of its parts, when a part ends between tokens or
the next one begins with a character that ends any word (`tokens_append`, `tokens_append_break`).
-/

namespace VectorIcon.Kotlin

open Text

/-- A token. The text of a literal is the one it stands for. -/
inductive Token
  | word (text : String)
  | literal (text : String)
  | mark (c : Char)
  deriving Repr, DecidableEq

/-- Where a reader of code is: between tokens, in a word, after a point in a number, in a literal, or
after a backslash in one. -/
inductive Mode
  | between
  | word (read : List Char)
  | point (read : List Char)
  | literal (read : List Char)
  | escape (read : List Char)
  deriving Repr, DecidableEq

/-- A character of words. -/
def isWordChar (c : Char) : Bool :=
  isAlphanumeric c || c == '_'

/-- The character that an escape stands for. -/
def unescape (c : Char) : Char :=
  if c = 'n' then '\n' else c

/-- The tokens that are cut off when the code ends. -/
def Mode.rest : Mode → List Token
  | .between => []
  | .word read => [.word (String.ofList read)]
  | .point read => [.word (String.ofList read), .mark '.']
  | .literal read | .escape read => [.literal (String.ofList read)]

/-- A character after the end of a token. -/
def start (c : Char) : Mode × List Token :=
  if isBlank c then (.between, [])
  else if c = '"' then (.literal [], [])
  else if isWordChar c then (.word [c], [])
  else (.between, [.mark c])

/-- One character: where the reader is after it, and the tokens that it ends. -/
def step (m : Mode) (c : Char) : Mode × List Token :=
  match m with
  | .between => start c
  | .word read =>
    if isWordChar c then (.word (read ++ [c]), [])
    else if c = '.' ∧ read.head?.any isDigit then (.point read, [])
    else ((start c).1, (Mode.word read).rest ++ (start c).2)
  | .point read =>
    if isDigit c then (.word (read ++ ['.', c]), [])
    else ((start c).1, (Mode.point read).rest ++ (start c).2)
  | .literal read =>
    if c = '"' then (.between, [.literal (String.ofList read)])
    else if c = '\\' then (.escape read, [])
    else (.literal (read ++ [c]), [])
  | .escape read => (.literal (read ++ [unescape c]), [])

/-- Where the reader is after a text. -/
def modeAfter (m : Mode) : List Char → Mode
  | [] => m
  | c :: s => modeAfter (step m c).1 s

/-- The tokens of a text that is read from a mode on. -/
def tokens (m : Mode) : List Char → List Token
  | [] => m.rest
  | c :: s => (step m c).2 ++ tokens (step m c).1 s

/-- The tokens of code. -/
def tokensOf (code : String) : List Token :=
  tokens .between code.toList

/-! ## Texts that are put together -/

theorem modeAfter_append (m : Mode) (s t : List Char) :
    modeAfter m (s ++ t) = modeAfter (modeAfter m s) t := by
  induction s generalizing m with
  | nil => rfl
  | cons c s ih => rw [List.cons_append, modeAfter, modeAfter, ih]

/-- A part that ends between tokens is cut apart from what follows. -/
theorem tokens_append {m : Mode} {s : List Char} (h : modeAfter m s = .between) (t : List Char) :
    tokens m (s ++ t) = tokens m s ++ tokens .between t := by
  induction s generalizing m with
  | nil =>
    rw [modeAfter] at h
    rw [h]
    rfl
  | cons c s ih => rw [List.cons_append, tokens, tokens, ih h, List.append_assoc]

/-- No literal is open. -/
def Mode.isClosed : Mode → Bool
  | .literal _ | .escape _ => false
  | _ => true

/-- The character goes on with no word. -/
def isBreak (c : Char) : Bool :=
  !isWordChar c && c != '.'

/-- A break ends the token before it, if a literal is not open. -/
theorem step_of_isBreak {m : Mode} {c : Char} (hm : m.isClosed = true) (hc : isBreak c = true) :
    step m c = ((start c).1, m.rest ++ (start c).2) := by
  have hword : isWordChar c = false := by
    unfold isBreak at hc
    simp at hc
    exact hc.1
  have hpoint : c ≠ '.' := by
    unfold isBreak at hc
    simp at hc
    exact hc.2
  have hdigit : isDigit c = false := by
    unfold isWordChar isAlphanumeric at hword
    simp at hword
    exact hword.1.2
  cases m with
  | between => rfl
  | word read => rw [step, if_neg (by rw [hword]; exact Bool.false_ne_true), if_neg (fun h => hpoint h.1)]
  | point read => rw [step, if_neg (by rw [hdigit]; exact Bool.false_ne_true)]
  | literal read => cases hm
  | escape read => cases hm

/-- A break may follow any text without an open literal. -/
theorem tokens_append_break {m : Mode} {s : List Char} {c : Char}
    (h : (modeAfter m s).isClosed = true) (hc : isBreak c = true) (t : List Char) :
    tokens m (s ++ c :: t) = tokens m s ++ tokens .between (c :: t) := by
  induction s generalizing m with
  | nil =>
    rw [modeAfter] at h
    rw [List.nil_append, tokens, tokens, tokens, step_of_isBreak h hc]
    rw [step, List.append_assoc]
  | cons d s ih => rw [List.cons_append, tokens, tokens, ih h, List.append_assoc]

theorem modeAfter_append_break {m : Mode} {s : List Char} {c : Char}
    (h : (modeAfter m s).isClosed = true) (hc : isBreak c = true) (t : List Char) :
    modeAfter m (s ++ c :: t) = modeAfter .between (c :: t) := by
  rw [modeAfter_append, modeAfter, modeAfter, step_of_isBreak h hc]
  rfl

/-! ## What a text reads as -/

/-- The text has the given tokens, and no literal is open at its end. -/
def Reads (s : String) (ts : List Token) : Prop :=
  tokensOf s = ts ∧ (modeAfter .between s.toList).isClosed = true

/-- The text has the given tokens, and the last of them is cut off at its end. -/
def Ends (s : String) (ts : List Token) : Prop :=
  tokensOf s = ts ∧ modeAfter .between s.toList = .between

instance (s : String) (ts : List Token) : Decidable (Reads s ts) :=
  inferInstanceAs (Decidable (_ ∧ _))

instance (s : String) (ts : List Token) : Decidable (Ends s ts) :=
  inferInstanceAs (Decidable (_ ∧ _))

/-- The text is empty or begins with a break. -/
def startsWithBreak (s : String) : Bool :=
  s.toList.head?.all isBreak

theorem Ends.reads {s : String} {ts : List Token} (h : Ends s ts) : Reads s ts := by
  refine ⟨h.1, ?_⟩
  rw [h.2]
  rfl

theorem reads_empty : Reads "" [] := by decide

section

variable {a b : String} {ts us : List Token}

theorem Ends.append_reads (ha : Ends a ts) (hb : Reads b us) : Reads (a ++ b) (ts ++ us) := by
  constructor
  · rw [tokensOf, String.toList_append, tokens_append ha.2, ← tokensOf, ha.1, ← tokensOf, hb.1]
  · rw [String.toList_append, modeAfter_append, ha.2, hb.2]

theorem Ends.append_ends (ha : Ends a ts) (hb : Ends b us) : Ends (a ++ b) (ts ++ us) := by
  refine ⟨(ha.append_reads hb.reads).1, ?_⟩
  rw [String.toList_append, modeAfter_append, ha.2, hb.2]

theorem Reads.append_reads (ha : Reads a ts) (hb : Reads b us) (hbreak : startsWithBreak b = true) :
    Reads (a ++ b) (ts ++ us) := by
  unfold Reads tokensOf at *
  unfold startsWithBreak at hbreak
  rw [String.toList_append]
  cases hs : b.toList with
  | nil =>
    rw [hs] at hb
    rw [List.append_nil, ← hb.1, ha.1]
    exact ⟨(List.append_nil ts).symm, ha.2⟩
  | cons c rest =>
    rw [hs] at hb hbreak
    rw [tokens_append_break ha.2 hbreak, modeAfter_append_break ha.2 hbreak, ha.1, hb.1]
    exact ⟨rfl, hb.2⟩

theorem Reads.append_ends (ha : Reads a ts) (hb : Ends b us) (hbreak : startsWithBreak b = true)
    (hne : b ≠ "") : Ends (a ++ b) (ts ++ us) := by
  refine ⟨(ha.append_reads hb.reads hbreak).1, ?_⟩
  unfold startsWithBreak at hbreak
  rw [String.toList_append]
  cases hs : b.toList with
  | nil => exact absurd (String.toList_eq_nil_iff.1 hs) hne
  | cons c rest =>
    have hend := hb.2
    rw [hs] at hbreak hend
    rw [modeAfter_append_break ha.2 hbreak, hend]

end

/-! ## Marks -/

theorem reads_close : Reads ")" [.mark ')'] := by decide

theorem Reads.then_close {a : String} {ts : List Token} (h : Reads a ts) :
    Reads (a ++ ")") (ts ++ [.mark ')']) :=
  h.append_reads reads_close (by decide)

theorem Reads.then_open {a : String} {ts : List Token} (h : Reads a ts) :
    Ends (a ++ "(") (ts ++ [.mark '(']) :=
  h.append_ends (by decide) (by decide) (by decide)

/-- A comma with the blank after it. -/
theorem Reads.then_comma {a : String} {ts : List Token} (h : Reads a ts) :
    Ends (a ++ ", ") (ts ++ [.mark ',']) :=
  h.append_ends (by decide) (by decide) (by decide)

/-! ## Words -/

theorem toNat_of_isWordChar {c : Char} (h : isWordChar c = true) :
    (97 ≤ c.toNat ∧ c.toNat ≤ 122) ∨ (65 ≤ c.toNat ∧ c.toNat ≤ 90) ∨
      (48 ≤ c.toNat ∧ c.toNat ≤ 57) ∨ c.toNat = 95 := by
  have hle {a b : Char} : a ≤ b ↔ a.toNat ≤ b.toNat := Iff.rfl
  simp only [isWordChar, isAlphanumeric, isLetter, isDigit, Bool.or_eq_true, Bool.and_eq_true,
    decide_eq_true_eq, beq_iff_eq, hle] at h
  rcases h with ((h | h) | h) | rfl
  · exact .inl h
  · exact .inr (.inl h)
  · exact .inr (.inr (.inl h))
  · exact .inr (.inr (.inr rfl))

theorem isBlank_of_isWordChar {c : Char} (h : isWordChar c = true) : isBlank c = false := by
  have hn := toNat_of_isWordChar h
  unfold isBlank
  simp
  omega

theorem start_of_isWordChar {c : Char} (h : isWordChar c = true) : start c = (.word [c], []) := by
  have hquote : c ≠ '"' := by
    rintro rfl
    exact absurd h (by decide)
  rw [start, isBlank_of_isWordChar h, if_neg Bool.false_ne_true, if_neg hquote, if_pos h]

/-- The text is read as one word so far. -/
def IsRun (s : List Char) : Prop :=
  ∀ t, tokens .between (s ++ t) = tokens (.word s) t ∧
    modeAfter .between (s ++ t) = modeAfter (.word s) t

theorem isRun_singleton {c : Char} (h : isWordChar c = true) : IsRun [c] := by
  intro t
  rw [List.cons_append, tokens, modeAfter, step, start_of_isWordChar h]
  exact ⟨rfl, rfl⟩

/-- One more character of the word. -/
theorem IsRun.concat {s : List Char} {c : Char} (hs : IsRun s) (hc : isWordChar c = true) :
    IsRun (s ++ [c]) := by
  intro t
  obtain ⟨htokens, hmode⟩ := hs (c :: t)
  rw [List.append_assoc, List.singleton_append, htokens, hmode, tokens, modeAfter, step, if_pos hc]
  exact ⟨rfl, rfl⟩

theorem IsRun.append {s u : List Char} (hs : IsRun s) (hu : ∀ c ∈ u, isWordChar c = true) :
    IsRun (s ++ u) := by
  induction u generalizing s with
  | nil =>
    rw [List.append_nil]
    exact hs
  | cons c u ih =>
    rw [← List.singleton_append, ← List.append_assoc]
    exact ih (hs.concat (hu c (List.mem_cons_self ..))) fun d hd => hu d (List.mem_cons_of_mem _ hd)

theorem IsRun.reads {s : String} (h : IsRun s.toList) : Reads s [.word s] := by
  obtain ⟨htokens, hmode⟩ := h []
  rw [List.append_nil] at htokens hmode
  refine ⟨?_, by rw [hmode]; rfl⟩
  rw [tokensOf, htokens]
  show [Token.word (String.ofList s.toList)] = [Token.word s]
  rw [String.ofList_toList]

/-- A text of word characters. -/
def isWord (s : String) : Bool :=
  !s.toList.isEmpty && s.toList.all isWordChar

theorem isRun_of_isWord {s : String} (h : isWord s = true) : IsRun s.toList := by
  unfold isWord at h
  cases hs : s.toList with
  | nil =>
    rw [hs] at h
    cases h
  | cons c rest =>
    rw [hs, List.all_cons] at h
    simp only [List.isEmpty_cons, Bool.not_false, Bool.true_and, Bool.and_eq_true,
      List.all_eq_true] at h
    exact (isRun_singleton h.1).append h.2

theorem reads_word {s : String} (h : isWord s = true) : Reads s [.word s] :=
  (isRun_of_isWord h).reads

/-- A point ends a word when no digit follows it. -/
theorem IsRun.tokens_point {s t : List Char} {c : Char} (hs : IsRun s) (hc : isDigit c = false) :
    tokens .between (s ++ '.' :: c :: t) =
        .word (String.ofList s) :: .mark '.' :: tokens .between (c :: t) ∧
      modeAfter .between (s ++ '.' :: c :: t) = modeAfter .between (c :: t) := by
  obtain ⟨htokens, hmode⟩ := hs ('.' :: c :: t)
  rw [htokens, hmode, tokens, modeAfter, step, if_neg (by decide)]
  split
  · rw [tokens, modeAfter, step, if_neg (by rw [hc]; exact Bool.false_ne_true)]
    exact ⟨rfl, rfl⟩
  · exact ⟨rfl, rfl⟩

theorem IsRun.append_member {w b : String} {us : List Token} (hw : IsRun w.toList)
    (hb : Reads b us) (hfirst : b.toList.head?.any (!isDigit ·) = true) :
    Reads (w ++ ("." ++ b)) (.word w :: .mark '.' :: us) ∧
      modeAfter .between (w ++ ("." ++ b)).toList = modeAfter .between b.toList := by
  unfold Reads tokensOf at *
  rw [String.toList_append, String.toList_append]
  cases hs : b.toList with
  | nil =>
    rw [hs] at hfirst
    cases hfirst
  | cons c t =>
    rw [hs] at hb hfirst
    have hc : isDigit c = false := by simpa using hfirst
    obtain ⟨htokens, hmode⟩ := @IsRun.tokens_point w.toList t c hw hc
    show (tokens .between (w.toList ++ '.' :: c :: t) = _ ∧
      (modeAfter .between (w.toList ++ '.' :: c :: t)).isClosed = true) ∧
      modeAfter .between (w.toList ++ '.' :: c :: t) = _
    rw [htokens, hmode, String.ofList_toList, hb.1]
    exact ⟨⟨rfl, hb.2⟩, rfl⟩

/-! ## Literals -/

/-- What is escaped is one of four characters after a backslash, and the rest is no mark of a literal. -/
theorem escapeChar_cases (c : Char) :
    (∃ d ∈ ['\\', '"', '$', 'n'], escapeChar c = ['\\', d] ∧ unescape d = c) ∨
      (escapeChar c = [c] ∧ c ∉ ['\\', '"', '$', '\n']) := by
  unfold escapeChar
  split
  · next h => exact .inl ⟨'\\', by decide, rfl, h.symm⟩
  split
  · next h => exact .inl ⟨'"', by decide, rfl, h.symm⟩
  split
  · next h => exact .inl ⟨'$', by decide, rfl, h.symm⟩
  split
  · next h => exact .inl ⟨'n', by decide, rfl, h.symm⟩
  · next hslash hquote hdollar hline => exact .inr ⟨rfl, by simp [hslash, hquote, hdollar, hline]⟩

theorem tokens_escapeChar (read : List Char) (c : Char) (t : List Char) :
    tokens (.literal read) (escapeChar c ++ t) = tokens (.literal (read ++ [c])) t ∧
      modeAfter (.literal read) (escapeChar c ++ t) = modeAfter (.literal (read ++ [c])) t := by
  rcases escapeChar_cases c with ⟨d, -, heq, rfl⟩ | ⟨heq, hplain⟩
  · rw [heq]
    exact ⟨rfl, rfl⟩
  · have hslash : c ≠ '\\' := fun h => hplain (by rw [h]; decide)
    have hquote : c ≠ '"' := fun h => hplain (by rw [h]; decide)
    rw [heq, List.singleton_append, tokens, modeAfter, step, if_neg hquote, if_neg hslash]
    exact ⟨rfl, rfl⟩

theorem tokens_escaped (read s t : List Char) :
    tokens (.literal read) (s.flatMap escapeChar ++ t) = tokens (.literal (read ++ s)) t ∧
      modeAfter (.literal read) (s.flatMap escapeChar ++ t) = modeAfter (.literal (read ++ s)) t := by
  induction s generalizing read with
  | nil =>
    rw [List.append_nil]
    exact ⟨rfl, rfl⟩
  | cons c s ih =>
    obtain ⟨htokens, hmode⟩ := tokens_escapeChar read c (s.flatMap escapeChar ++ t)
    obtain ⟨htokens', hmode'⟩ := ih (read ++ [c])
    rw [List.flatMap_cons, List.append_assoc, htokens, hmode, htokens', hmode', List.append_assoc]
    exact ⟨rfl, rfl⟩

theorem toList_stringLiteral (text : String) :
    (stringLiteral text).toList = '"' :: (text.toList.flatMap escapeChar ++ ['"']) := by
  rw [stringLiteral, String.toList_append, String.toList_append, escape, String.toList_ofList,
    String.toList_ofList]
  rfl

/-- A string literal is one token, which stands for its text. -/
theorem ends_stringLiteral (text : String) : Ends (stringLiteral text) [.literal text] := by
  obtain ⟨htokens, hmode⟩ := tokens_escaped [] text.toList ['"']
  constructor
  · rw [tokensOf, toList_stringLiteral, tokens, step]
    show tokens (.literal []) _ = _
    rw [htokens, List.nil_append]
    show [Token.literal (String.ofList text.toList)] = _
    rw [String.ofList_toList]
  · rw [toList_stringLiteral, modeAfter, step]
    show modeAfter (.literal []) _ = _
    rw [hmode]
    rfl

example : tokensOf (stringLiteral "a \"b\"" ++ ", 2.5f") =
    [.literal "a \"b\"", .mark ',', .word "2.5f"] := by
  decide

end VectorIcon.Kotlin
