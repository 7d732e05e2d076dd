import VectorIcon.Proofs.Path.FirstFault

/-!
# Path data that is put together

Path data that starts with a letter may be put after other path data: the commands of both are read, one
after the other, and errors of the second are found at the same place in it (`parse_append`).

1. A letter or a gap is no part of a numeral, so the first text is read as it is read alone
   (`isNumeralChar_of_startsSegment`).
2. A letter does not ask what was read before it (`readFrom_of_startsSegment`).
3. Places of errors are counted from the start of the text (`readFrom_later`).
-/

namespace VectorIcon.Path

open Text Number

/-- Nothing but a gap, or a letter of a command after a gap. -/
inductive StartsSegment : List Char → Prop
  | gap {gap} : IsGap gap → StartsSegment gap
  | close {gap c s} : IsGap gap → c ∈ ['Z', 'z'] → StartsSegment (gap ++ c :: s)
  | letter {gap c frame kind s} : IsGap gap → (c, frame, kind) ∈ drawingLetters →
      StartsSegment (gap ++ c :: s)

theorem isNumeralChar_of_startsSegment {s : List Char} (h : StartsSegment s) :
    ∀ c ∈ s.head?, isNumeralChar c = false := by
  have hgaps : ∀ c ∈ [' ', '\t', '\n', '\x0c', '\r', ','], isNumeralChar c = false := by
    simp [isNumeralChar, isDigit]
  have hhead {gap s : List Char} {d : Char} (hgap : IsGap gap) (hd : isNumeralChar d = false) :
      ∀ c ∈ (gap ++ d :: s).head?, isNumeralChar c = false := by
    intro c hc
    cases gap with
    | nil =>
      cases hc
      exact hd
    | cons d gap =>
      cases hc
      exact hgaps c (hgap c List.mem_cons_self)
  cases h with
  | gap hgap => exact fun c hc => hgaps c (hgap c (List.mem_of_mem_head? hc))
  | close hgap hc =>
    have hclose : ∀ c ∈ ['Z', 'z'], isNumeralChar c = false := by simp [isNumeralChar, isDigit]
    exact hhead hgap (hclose _ hc)
  | letter hgap hc =>
    have hletters : ∀ entry ∈ drawingLetters, isNumeralChar entry.1 = false := by decide
    exact hhead hgap (hletters _ hc)

/-! ## One turn of the reader -/

theorem match_readGroup (length : Nat) (frame : Frame) (kind again : Kind) (s : List Char) :
    (match _h : readGroup length frame kind s with
      | .error e => .error e
      | .ok (command, rest) => (command :: ·) <$> readFrom length (some (frame, again)) rest) =
    readGroup length frame kind s >>= fun p =>
      (p.1 :: ·) <$> readFrom length (some (frame, again)) p.2 := by
  split <;> next h => rw [h]; rfl

/-- The first turn of the reader, with the run after it. -/
theorem readFrom_eq (length : Nat) (again : Option (Frame × Kind)) (text : List Char) :
    readFrom length again text =
      match skipSeparators text with
      | [] => .ok []
      | c :: rest =>
        if isLetter c then
          match Letter.ofChar? c with
          | none => .error (.unknownCommand c (length - (c :: rest).length))
          | some .close => (Command.close :: ·) <$> readFrom length none rest
          | some (.draw frame kind) => readGroup length frame kind rest >>= fun p =>
            (p.1 :: ·) <$> readFrom length (some (frame, kind.next)) p.2
        else if startsNumber (c :: rest) then
          match again with
          | none => .error (.malformed .missingCommand (excerpt (c :: rest)))
          | some (frame, kind) => readGroup length frame kind (c :: rest) >>= fun p =>
            (p.1 :: ·) <$> readFrom length (some (frame, kind)) p.2
        else .error (.malformed .unexpectedCharacter (excerpt (c :: rest))) := by
  conv => lhs; unfold readFrom
  split
  · next hs => rw [hs]
  · next c rest hs =>
    rw [hs]
    by_cases hletter : isLetter c = true
    · simp only [hletter, if_true]
      cases Letter.ofChar? c with
      | none => rfl
      | some letter =>
        cases letter with
        | close => rfl
        | draw frame kind => exact match_readGroup ..
    by_cases hstart : startsNumber (c :: rest) = true
    · simp only [hletter, hstart, if_true, Bool.false_eq_true, if_false]
      cases again with
      | none => rfl
      | some p => exact match_readGroup ..
    · simp only [hletter, hstart, Bool.false_eq_true, if_false]

/-- Only the text from its first token on counts. -/
theorem readFrom_of_skipSeparators_eq {length : Nat} {again : Option (Frame × Kind)}
    {s t : List Char} (h : skipSeparators s = skipSeparators t) :
    readFrom length again s = readFrom length again t := by
  rw [readFrom_eq length again s, readFrom_eq length again t, h]

/-- Text that starts with a letter does not tell what could be repeated before it. -/
theorem readFrom_of_startsSegment {length : Nat} {s : List Char} (h : StartsSegment s)
    (again : Option (Frame × Kind)) : readFrom length again s = readFrom length none s := by
  have hletter {c : Char} {rest : List Char} (hs : skipSeparators s = c :: rest)
      (hc : isLetter c = true) : readFrom length again s = readFrom length none s := by
    rw [readFrom_eq length again s, readFrom_eq length none s, hs]
    simp only [hc, if_true]
  cases h with
  | gap hgap =>
    rw [readFrom_gap (skipSeparators_gap hgap), readFrom_gap (skipSeparators_gap hgap)]
  | @close gap c t hgap hc =>
    refine @hletter c t ?_ (isLetter_close c hc)
    rw [skipSeparators_append hgap, skipSeparators_cons (isSeparator_close c hc)]
  | @letter gap c frame kind t hgap hc =>
    refine @hletter c t ?_ (isLetter_drawingLetters _ hc)
    rw [skipSeparators_append hgap, skipSeparators_cons (isSeparator_drawingLetters _ hc)]

/-! ## Places of errors -/

/-- The error in a text with more characters before it. -/
def Error.later (count : Nat) : Error → Error
  | .unknownCommand c offset => .unknownCommand c (offset + count)
  | .malformed fault near => .malformed fault near

theorem readGroup_length (length length' : Nat) (frame : Frame) (kind : Kind) (s : List Char) :
    readGroup length frame kind s = readGroup length' frame kind s := by
  unfold readGroup
  cases hscan : scanArguments kind.slots s with
  | error e => rfl
  | ok p =>
    obtain ⟨as, rest⟩ := p
    obtain ⟨command, hcommand⟩ :=
      exists_of_map_slot frame (map_slot_of_argumentsAt (scanArguments_eq_ok_iff.1 hscan))
    simp only [bind, Except.bind, hcommand]

theorem mapError_map {ε α β : Type} (f : α → β) (g : ε → ε) (x : Except ε α) :
    (f <$> x).mapError g = f <$> x.mapError g := by
  cases x <;> rfl

theorem length_lt_of_skipSeparators {s rest : List Char} {c : Char}
    (h : skipSeparators s = c :: rest) : rest.length < s.length := by
  have hshort := length_skipSeparators_le s
  rwa [h] at hshort

/-- In a text with more characters before it the same is read, and errors are later. -/
theorem readFrom_later {length : Nat} {again : Option (Frame × Kind)} {s : List Char}
    (h : s.length ≤ length) (count : Nat) :
    readFrom (length + count) again s = (readFrom length again s).mapError (.later count) := by
  -- only an unknown letter is reported with a place that the length of the whole text tells
  fun_induction readFrom length again s with
  | case1 again s hs =>
    rw [readFrom_gap hs]
    rfl
  | case2 again s c rest hs hletter hc =>
    have hshort := length_lt_of_skipSeparators hs
    rw [readFrom_eq, hs]
    simp only [hletter, if_true, hc]
    have hoffset : length + count - (c :: rest).length = length - (c :: rest).length + count := by
      rw [List.length_cons]
      omega
    rw [hoffset]
    rfl
  | case3 again s c rest hs hletter hc ih =>
    have hshort := length_lt_of_skipSeparators hs
    rw [readFrom_eq, hs]
    simp only [hletter, if_true, hc]
    rw [ih (by omega), mapError_map]
  | case4 again s c rest hs hletter frame kind hc e hg =>
    obtain ⟨w, rest', fault, -, -, rfl⟩ := exists_of_readGroup_error hg
    rw [readFrom_eq, hs]
    simp only [hletter, if_true, hc, readGroup_length (length + count) length, hg]
    rfl
  | case5 again s c rest hs hletter frame kind hc command rest' hg ih =>
    have hshort := length_lt_of_skipSeparators hs
    have hless := length_lt_of_readGroup hg
    rw [readFrom_eq, hs]
    simp only [hletter, if_true, hc, readGroup_length (length + count) length, hg]
    rw [mapError_map, ← ih (by omega)]
    rfl
  | case6 s c rest hs hletter hstart =>
    rw [readFrom_eq, hs]
    simp only [hletter, hstart, if_true, Bool.false_eq_true, if_false]
    rfl
  | case7 s c rest hs hletter hstart frame kind e hg =>
    obtain ⟨w, rest', fault, -, -, rfl⟩ := exists_of_readGroup_error hg
    rw [readFrom_eq, hs]
    simp only [hletter, hstart, if_true, Bool.false_eq_true, if_false,
      readGroup_length (length + count) length, hg]
    rfl
  | case8 s c rest hs hletter hstart frame kind command rest' hg ih =>
    have hshort := length_lt_of_skipSeparators hs
    have hless := length_lt_of_readGroup hg
    rw [List.length_cons] at hless
    rw [readFrom_eq, hs]
    simp only [hletter, hstart, if_true, Bool.false_eq_true, if_false,
      readGroup_length (length + count) length, hg]
    rw [mapError_map, ← ih (by omega)]
    rfl
  | case9 again s c rest hs hletter hstart =>
    rw [readFrom_eq, hs]
    simp only [hletter, hstart, Bool.false_eq_true, if_false]
    rfl

/-- **Path data may be put together.** Path data that starts with a letter, put after other path data, is
read as the commands of both; what is wrong with it is reported as before, with a place that counts the
text before it. -/
theorem parse_append {a b : String} {cs : List (Command Float)} (ha : parse a = .ok cs)
    (hb : StartsSegment b.toList) :
    parse (a ++ b) =
      match parse b with
      | .ok ds => .ok (cs ++ ds)
      | .error (.unknownCommand c offset) => .error (.unknownCommand c (offset + a.utf8ByteSize))
      | .error (.malformed fault near) => .error (.malformed fault near) := by
  obtain ⟨w, gap, hw, hascii, hgap, hread⟩ := exists_of_parse_ok ha
  have hjoined := hread (gap ++ b.toList) (stopAlike_append gap (isNumeralChar_of_startsSegment hb))
  have hskip : skipSeparators (gap ++ b.toList) = skipSeparators b.toList := skipSeparators_append hgap _
  have hbytes : a.utf8ByteSize = a.toList.length := by
    rw [← utf8ByteSize_of_isAscii hascii, String.ofList_toList]
  have htext : (a ++ b).toList = w ++ (gap ++ b.toList) := by
    rw [String.toList_append, hw, List.append_assoc]
  have hlength : (a ++ b).toList.length = b.toList.length + a.utf8ByteSize := by
    rw [String.toList_append, List.length_append, hbytes, Nat.add_comm]
  calc parse (a ++ b)
      = (cs ++ ·) <$> readFrom (a ++ b).toList.length none b.toList := by
        rw [parse, htext, readFrom_of_commandsAt hjoined isSteady_none,
          readFrom_of_skipSeparators_eq hskip, readFrom_of_startsSegment hb]
    _ = (cs ++ ·) <$> (parse b).mapError (.later a.utf8ByteSize) := by
        rw [hlength, readFrom_later (Nat.le_refl _)]
        rfl
    _ = _ := by
        cases hparse : parse b with
        | ok ds => rfl
        | error e => cases e <;> rfl

/-- A line that ends in a digit, with a letter after it that could have been the exponent of another one. -/
theorem parse_append_lines :
    StartsSegment ", l.5.5".toList ∧ StartsSegment ", l.5.5E".toList ∧
    parse ", l.5.5E" = .error (.unknownCommand 'E' 7) ∧
    ∃ cs ds, parse "M1 1L2-3" = .ok cs ∧ parse ", l.5.5" = .ok ds ∧
      parse ("M1 1L2-3" ++ ", l.5.5") = .ok (cs ++ ds) ∧
      parse ("M1 1L2-3" ++ ", l.5.5E") = .error (.unknownCommand 'E' 15) := by
  have hline : ", l.5.5".toList = [',', ' '] ++ 'l' :: ".5.5".toList := by decide
  have hbroken : ", l.5.5E".toList = [',', ' '] ++ 'l' :: ".5.5E".toList := by decide
  have hstart (s : List Char) : StartsSegment ([',', ' '] ++ 'l' :: s) :=
    @StartsSegment.letter _ 'l' .relative .lineTo s (by simp [IsGap]) (by decide)
  have herror : parse ", l.5.5E" = .error (.unknownCommand 'E' 7) :=
    parse_of_error? (by decide +kernel)
  obtain ⟨cs, hcs⟩ := @exists_of_error?_eq_none "M1 1L2-3" (by decide +kernel)
  obtain ⟨ds, hds⟩ := @exists_of_error?_eq_none ", l.5.5" (by decide +kernel)
  have hsecond : StartsSegment ", l.5.5".toList := hline ▸ hstart _
  have hwrong : StartsSegment ", l.5.5E".toList := hbroken ▸ hstart _
  refine ⟨hsecond, hwrong, herror, cs, ds, hcs, hds, ?_, ?_⟩
  · rw [parse_append hcs hsecond, hds]
  · rw [parse_append hcs hwrong, herror]
    rfl

end VectorIcon.Path
