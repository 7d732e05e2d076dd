import VectorIcon.Proofs.Fallible
import VectorIcon.Proofs.Path.Grammar

/-!
# Parsing path data

The reader accepts exactly the texts of the grammar, with the commands of their derivations
(`parse_eq_ok_iff`).

1. Letters: the table of the grammar is the reading of letters (`ofChar?_eq_draw_iff`).
2. One group: the scanner of arguments succeeds exactly where the grammar has a group
   (`readGroup_eq_ok_iff`).
3. Sound: after a letter the reader continues the groups of that letter, so what it gives is derived
   from the rest of these groups and the segments after them (`derives_of_readFrom`).
4. Complete: a further group starts with a number and a segment with a letter, so the reader takes the
   turns of the derivation (`readFrom_of_groupsAt`, `readFrom_of_pathData`).
-/

namespace VectorIcon.Path

open Text Number

/-! ## Letters -/

theorem eq_or_toNat_eq_of_toUpper {c u : Char} (h : c.toUpper = u) :
    c = u ∨ c.toNat = u.toNat + 32 := by
  unfold Char.toUpper at h
  split at h
  · next hc =>
    right
    rw [← h]
    have hlow : 97 ≤ c.val.toNat := UInt32.le_iff_toNat_le.1 hc.1
    have hhigh : c.val.toNat ≤ 122 := UInt32.le_iff_toNat_le.1 hc.2
    show c.val.toNat = (c.val + ('A'.val - 'a'.val)).toNat + 32
    rw [UInt32.toNat_add, show ('A'.val - 'a'.val).toNat = 4294967264 from rfl]
    omega
  · exact .inl h

theorem ofChar?_eq_close_iff {c : Char} : Letter.ofChar? c = some .close ↔ c ∈ ['Z', 'z'] := by
  unfold Letter.ofChar?
  split
  · next h => simpa using h
  · next h =>
    simp only [Option.map_eq_some_iff, reduceCtorEq, and_false, exists_false, false_iff]
    simpa using h

theorem mem_drawingLetters_of_ofChar? {c : Char} {frame : Frame} {kind : Kind}
    (h : Letter.ofChar? c = some (.draw frame kind)) : (c, frame, kind) ∈ drawingLetters := by
  unfold Letter.ofChar? at h
  split at h
  · cases h
  · obtain ⟨kind', hk, heq⟩ := Option.map_eq_some_iff.1 h
    obtain ⟨rfl, rfl⟩ := Letter.draw.inj heq
    generalize hu : c.toUpper = u at hk
    have forms : ∀ s : Char, s.toNat = u.toNat + 32 → c = u ∨ c = s := by
      intro s hs
      rcases eq_or_toNat_eq_of_toUpper hu with h | h
      · exact .inl h
      · exact .inr (Char.toNat_inj.1 (h.trans hs.symm))
    unfold Kind.ofUpper? at hk
    split at hk
    · cases hk; rcases forms 'm' rfl with rfl | rfl <;> decide
    · cases hk; rcases forms 'l' rfl with rfl | rfl <;> decide
    · cases hk; rcases forms 'h' rfl with rfl | rfl <;> decide
    · cases hk; rcases forms 'v' rfl with rfl | rfl <;> decide
    · cases hk; rcases forms 'c' rfl with rfl | rfl <;> decide
    · cases hk; rcases forms 'q' rfl with rfl | rfl <;> decide
    · cases hk; rcases forms 's' rfl with rfl | rfl <;> decide
    · cases hk; rcases forms 't' rfl with rfl | rfl <;> decide
    · cases hk; rcases forms 'a' rfl with rfl | rfl <;> decide
    · cases hk

/-- Every entry of the table is read as the table says. -/
theorem ofChar?_drawingLetters :
    ∀ entry ∈ drawingLetters, Letter.ofChar? entry.1 = some (.draw entry.2.1 entry.2.2) := by
  decide

theorem ofChar?_eq_draw_iff {c : Char} {frame : Frame} {kind : Kind} :
    Letter.ofChar? c = some (.draw frame kind) ↔ (c, frame, kind) ∈ drawingLetters :=
  ⟨mem_drawingLetters_of_ofChar?, fun h => ofChar?_drawingLetters _ h⟩

theorem isLetter_drawingLetters : ∀ entry ∈ drawingLetters, isLetter entry.1 = true := by
  decide

theorem isSeparator_drawingLetters : ∀ entry ∈ drawingLetters, isSeparator entry.1 = false := by
  decide

/-! ## Gaps -/

theorem isSeparator_iff {c : Char} :
    isSeparator c = true ↔ c ∈ [' ', '\t', '\n', '\x0c', '\r', ','] := by
  unfold isSeparator
  simp [or_assoc]

theorem isGap_takeWhile (s : List Char) : IsGap (s.takeWhile isSeparator) := by
  intro c hc
  exact isSeparator_iff.1 (List.all_eq_true.1 List.all_takeWhile c hc)

theorem skipSeparators_append {gap : List Char} (h : IsGap gap) (s : List Char) :
    skipSeparators (gap ++ s) = skipSeparators s :=
  List.dropWhile_append_of_pos fun c hc => isSeparator_iff.2 (h c hc)

theorem skipSeparators_cons {c : Char} (h : isSeparator c = false) (s : List Char) :
    skipSeparators (c :: s) = c :: s := by
  unfold skipSeparators
  rw [List.dropWhile_cons, h]; rfl

theorem skipSeparators_gap {gap : List Char} (h : IsGap gap) : skipSeparators gap = [] := by
  have := skipSeparators_append h []
  rwa [List.append_nil] at this

/-- A text is its first gap and what is left without it. -/
theorem exists_gap (s : List Char) : ∃ gap, IsGap gap ∧ s = gap ++ skipSeparators s :=
  ⟨_, isGap_takeWhile s, (List.takeWhile_append_dropWhile (p := isSeparator)).symm⟩

theorem exists_gap_of_skipSeparators {s rest : List Char} {c : Char}
    (h : skipSeparators s = c :: rest) : ∃ gap, IsGap gap ∧ s = gap ++ c :: rest := by
  obtain ⟨gap, hgap, hsplit⟩ := exists_gap s
  exact ⟨gap, hgap, h ▸ hsplit⟩

theorem skipSeparators_idem (s : List Char) :
    skipSeparators (skipSeparators s) = skipSeparators s := by
  obtain ⟨gap, hgap, hs⟩ := exists_gap s
  have h := congrArg skipSeparators hs
  rw [skipSeparators_append hgap] at h
  exact h.symm

/-! ## The first character of a number -/

theorem exists_cons_of_isDecimal {d w f : List Char} (h : IsDecimal d w f) :
    ∃ c d', d = c :: d' ∧ (isDigit c || c == '.') = true := by
  cases h with
  | whole hne hw =>
    cases d with
    | nil => exact absurd rfl hne
    | cons c d' => exact ⟨c, d', rfl, by rw [(isDigits_cons.1 hw).1]; rfl⟩
  | @point w f hne hw _ =>
    cases w with
    | nil => exact absurd rfl hne
    | cons c w' => exact ⟨c, w' ++ '.' :: f, rfl, by rw [(isDigits_cons.1 hw).1]; rfl⟩
  | fraction _ _ => exact ⟨'.', _, rfl, rfl⟩

theorem startsNumber_of_spells {w : List Char} {n : Numeral} (h : Spells w n) (t : List Char) :
    startsNumber (w ++ t) = true := by
  obtain ⟨hs, hd, -⟩ := h
  obtain ⟨c, d', rfl, hc⟩ := exists_cons_of_isDecimal hd
  cases hs with
  | none =>
    show (isDigit c || c == '.' || _) = true
    rw [hc, Bool.true_or]
  | plus => exact hc
  | minus => exact hc

theorem startsNumber_of_munches {s rest : List Char} {n : Numeral} (h : Munches s n rest) :
    startsNumber s = true := by
  obtain ⟨w, rfl, hw, -⟩ := h
  exact startsNumber_of_spells hw rest

theorem isSeparator_of_isDigit {c : Char} (h : isDigit c = true) : isSeparator c = false := by
  rw [← Bool.not_eq_true, isSeparator_iff]
  intro hc
  simp only [List.mem_cons, List.not_mem_nil, or_false] at hc
  rcases hc with rfl | rfl | rfl | rfl | rfl | rfl <;> exact absurd h (by decide)

theorem isLetter_of_isDigit {c : Char} (h : isDigit c = true) : isLetter c = false := by
  simp only [isDigit, Bool.and_eq_true, decide_eq_true_eq, Char.le_def,
    UInt32.le_iff_toNat_le] at h
  have h9 : '9'.val.toNat = 57 := rfl
  have ha : 'a'.val.toNat = 97 := rfl
  have hA : 'A'.val.toNat = 65 := rfl
  simp only [isLetter, Bool.or_eq_false_iff, Bool.and_eq_false_iff, decide_eq_false_iff_not,
    Char.le_def, UInt32.le_iff_toNat_le]
  omega

/-- A number starts with neither a separator nor a letter. -/
theorem exists_cons_of_startsNumber {s : List Char} (h : startsNumber s = true) :
    ∃ c s', s = c :: s' ∧ isSeparator c = false ∧ isLetter c = false := by
  cases s with
  | nil => cases h
  | cons c s' =>
    refine ⟨c, s', rfl, ?_⟩
    have hc : isDigit c = true ∨ c = '.' ∨ c = '+' ∨ c = '-' := by
      simp only [startsNumber, Bool.or_eq_true, Bool.and_eq_true, beq_iff_eq] at h
      rcases h with (h | h) | ⟨h | h, -⟩
      · exact .inl h
      · exact .inr (.inl h)
      · exact .inr (.inr (.inl h))
      · exact .inr (.inr (.inr h))
    rcases hc with hc | rfl | rfl | rfl
    · exact ⟨isSeparator_of_isDigit hc, isLetter_of_isDigit hc⟩
    · decide
    · decide
    · decide

/-! ## One group of arguments -/

theorem scanNumber_eq_ok_iff {s rest : List Char} {v : Float} :
    scanNumber s = .ok (v, rest) ↔
      ∃ n, Munches (skipSeparators s) n rest ∧ isFinite n.toFloat = true ∧ v = n.toFloat := by
  unfold scanNumber
  simp only [← scan?_eq_some_iff]
  cases hscan : scan? (skipSeparators s) with
  | none => simp
  | some p =>
    obtain ⟨n, t⟩ := p
    unfold finite?
    by_cases hfinite : isFinite n.toFloat = true
    · simp only [hfinite, if_true]
      constructor
      · intro h
        cases h
        exact ⟨n, rfl, hfinite, rfl⟩
      · rintro ⟨n', h, -, rfl⟩
        cases h
        rfl
    · simp only [hfinite]
      constructor
      · intro h
        cases h
      · rintro ⟨n', h, hfin, -⟩
        cases h
        exact absurd hfin hfinite

theorem scanFlag_eq_ok_iff {s rest : List Char} {v : Bool} :
    scanFlag s = .ok (v, rest) ↔
      skipSeparators s = (if v then '1' else '0') :: rest := by
  unfold scanFlag
  split
  · next t ht =>
    rw [ht]
    cases v <;> simp [eq_comm]
  · next t ht =>
    rw [ht]
    cases v <;> simp [eq_comm]
  · next h0 h1 =>
    constructor
    · intro h
      cases h
    · intro h
      cases v
      · exact absurd h (h0 rest)
      · exact absurd h (h1 rest)

theorem scanArgument_eq_ok_iff {slot : Slot} {s rest : List Char} {a : Argument Float} :
    scanArgument slot s = .ok (a, rest) ↔ ArgumentAt slot (skipSeparators s) a rest := by
  cases slot with
  | number =>
    constructor
    · intro h
      cases hscan : scanNumber s with
      | error e => rw [scanArgument, hscan] at h; cases h
      | ok p =>
        rw [scanArgument, hscan] at h
        obtain ⟨n, hn, hfinite, hv⟩ := scanNumber_eq_ok_iff.1 hscan
        cases h
        rw [hv]
        exact .number hn hfinite
    · rintro ⟨hn, hfinite⟩
      have hscan := scanNumber_eq_ok_iff.2 ⟨_, hn, hfinite, rfl⟩
      rw [scanArgument, hscan]; rfl
  | flag =>
    constructor
    · intro h
      cases hscan : scanFlag s with
      | error e => rw [scanArgument, hscan] at h; cases h
      | ok p =>
        obtain ⟨v, t⟩ := p
        rw [scanArgument, hscan] at h
        rw [scanFlag_eq_ok_iff.1 hscan]
        cases h
        cases v
        · exact .unset
        · exact .set
    · intro h
      generalize ht : skipSeparators s = t at h
      cases h with
      | unset =>
        have hscan : scanFlag s = .ok (false, rest) := scanFlag_eq_ok_iff.2 ht
        rw [scanArgument, hscan]; rfl
      | set =>
        have hscan : scanFlag s = .ok (true, rest) := scanFlag_eq_ok_iff.2 ht
        rw [scanArgument, hscan]; rfl

/-- An argument starts with no separator. -/
theorem skipSeparators_of_argumentAt {slot : Slot} {s rest : List Char} {a : Argument Float}
    (h : ArgumentAt slot s a rest) : skipSeparators s = s := by
  cases h with
  | number hn _ =>
    obtain ⟨c, s', rfl, hc, -⟩ := exists_cons_of_startsNumber (startsNumber_of_munches hn)
    exact skipSeparators_cons hc s'
  | unset => rfl
  | set => rfl

theorem scanArguments_cons {slot : Slot} {slots : List Slot} {s s' rest : List Char}
    {a : Argument Float} {as : List (Argument Float)} (h : scanArgument slot s = .ok (a, s'))
    (hs : scanArguments slots s' = .ok (as, rest)) :
    scanArguments (slot :: slots) s = .ok (a :: as, rest) := by
  simp only [scanArguments, bind, Except.bind, h, hs]
  rfl

theorem exists_of_scanArguments_cons {slot : Slot} {slots : List Slot} {s rest : List Char}
    {as : List (Argument Float)} (h : scanArguments (slot :: slots) s = .ok (as, rest)) :
    ∃ a s' as', scanArgument slot s = .ok (a, s') ∧ scanArguments slots s' = .ok (as', rest) ∧
      as = a :: as' := by
  cases ha : scanArgument slot s with
  | error e => simp only [scanArguments, bind, Except.bind, ha] at h; cases h
  | ok p =>
    obtain ⟨a, s'⟩ := p
    cases hs : scanArguments slots s' with
    | error e => simp only [scanArguments, bind, Except.bind, ha, hs] at h; cases h
    | ok q =>
      obtain ⟨as', t⟩ := q
      rw [scanArguments_cons ha hs] at h
      cases h
      exact ⟨a, s', as', rfl, hs, rfl⟩

theorem scanArguments_eq_ok_iff {slots : List Slot} {s rest : List Char}
    {as : List (Argument Float)} :
    scanArguments slots s = .ok (as, rest) ↔ ArgumentsAt slots s as rest := by
  constructor
  · intro h
    induction slots generalizing s as with
    | nil =>
      cases h
      exact .nil
    | cons slot slots ih =>
      obtain ⟨a, s', as', ha, hs, rfl⟩ := exists_of_scanArguments_cons h
      obtain ⟨gap, hgap, hsplit⟩ := exists_gap s
      rw [hsplit]
      exact .cons hgap (scanArgument_eq_ok_iff.1 ha) (ih hs)
  · intro h
    induction h with
    | nil => rfl
    | cons hgap ha _ ih =>
      refine scanArguments_cons (scanArgument_eq_ok_iff.2 ?_) ih
      rw [skipSeparators_append hgap, skipSeparators_of_argumentAt ha]
      exact ha

theorem ofArguments?_eq_some_iff {α : Type} {letter : Letter} {as : List (Argument α)}
    {command : Command α} :
    Command.ofArguments? letter as = some command ↔
      command.letter = letter ∧ command.arguments = as := by
  constructor
  · intro h
    unfold Command.ofArguments? at h
    split at h <;> cases h <;> exact ⟨rfl, rfl⟩
  · rintro ⟨rfl, rfl⟩
    exact Command.ofArguments?_letter_arguments command

theorem readGroup_eq_ok_iff {length : Nat} {frame : Frame} {kind : Kind} {s rest : List Char}
    {command : Command Float} :
    readGroup length frame kind s = .ok (command, rest) ↔ GroupAt frame kind s command rest := by
  unfold readGroup GroupAt
  cases hscan : scanArguments kind.slots s with
  | error e =>
    constructor
    · intro h
      cases h
    · rintro ⟨-, h⟩
      rw [← scanArguments_eq_ok_iff, hscan] at h
      cases h
  | ok p =>
    obtain ⟨as, t⟩ := p
    simp only [bind, Except.bind]
    constructor
    · intro h
      split at h
      · next c hc =>
        cases h
        obtain ⟨hletter, hargs⟩ := ofArguments?_eq_some_iff.1 hc
        rw [hargs]
        exact ⟨hletter, scanArguments_eq_ok_iff.1 hscan⟩
      · cases h
    · rintro ⟨hletter, h⟩
      rw [← scanArguments_eq_ok_iff, hscan] at h
      cases h
      rw [ofArguments?_eq_some_iff.2 ⟨hletter, rfl⟩]
      rfl

theorem Kind.exists_slots_eq (kind : Kind) : ∃ slots, kind.slots = .number :: slots := by
  cases kind <;> exact ⟨_, rfl⟩

/-- A group starts with a number. -/
theorem startsNumber_of_groupAt {frame : Frame} {kind : Kind} {s rest : List Char}
    {command : Command Float} (h : GroupAt frame kind s command rest) :
    startsNumber (skipSeparators s) = true := by
  obtain ⟨slots, hslots⟩ := kind.exists_slots_eq
  obtain ⟨-, h⟩ := h
  rw [hslots] at h
  generalize command.arguments = as at h
  cases h with
  | cons hgap ha _ =>
    rw [skipSeparators_append hgap, skipSeparators_of_argumentAt ha]
    cases ha with
    | number hn _ => exact startsNumber_of_munches hn

/-- A gap before a group is a part of its first argument's gap. -/
theorem groupAt_skipSeparators {frame : Frame} {kind : Kind} {s rest : List Char}
    {command : Command Float} :
    GroupAt frame kind (skipSeparators s) command rest ↔ GroupAt frame kind s command rest := by
  obtain ⟨slots, hslots⟩ := kind.exists_slots_eq
  unfold GroupAt
  rw [hslots, ← scanArguments_eq_ok_iff, ← scanArguments_eq_ok_iff]
  have hscan : scanNumber (skipSeparators s) = scanNumber s := by
    unfold scanNumber
    rw [skipSeparators_idem]
  simp only [scanArguments, scanArgument, hscan]

/-! ## Whole texts -/

/-- What the rest of a text derives after some groups: further groups of what is repeated and then
segments, or segments at once. -/
def Derives (again : Option (Frame × Kind)) (s : List Char) (cs : List (Command Float)) : Prop :=
  PathData s cs ∨ ∃ frame kind, again = some (frame, kind) ∧ ∃ cs₁ s' cs₂,
    GroupsAt frame kind s cs₁ s' ∧ PathData s' cs₂ ∧ cs = cs₁ ++ cs₂

/-- What the reader repeats is what the grammar repeats. -/
theorem Kind.next_eq (kind : Kind) : kind.next = if kind = .moveTo then .lineTo else kind := by
  cases kind <;> rfl

/-- Groups that follow a first one. -/
theorem exists_groupsAt_of_derives {frame : Frame} {kind : Kind} {s s' : List Char}
    {c : Command Float} {cs : List (Command Float)} (hc : GroupAt frame kind s c s')
    (h : Derives (some (frame, kind.next)) s' cs) :
    ∃ cs₁ t cs₂, GroupsAt frame kind s cs₁ t ∧ PathData t cs₂ ∧ c :: cs = cs₁ ++ cs₂ := by
  rcases h with h | ⟨frame', kind', heq, cs₁, t, cs₂, hgroups, hrest, rfl⟩
  · exact ⟨[c], s', cs, .last hc, h, rfl⟩
  · cases heq
    exact ⟨c :: cs₁, t, cs₂, .more hc (kind.next_eq ▸ hgroups), hrest, rfl⟩

theorem Kind.next_next (kind : Kind) : kind.next.next = kind.next := by
  cases kind <;> rfl

/-- A group without a letter leaves the same to be repeated after it. -/
def IsSteady (again : Option (Frame × Kind)) : Prop :=
  ∀ frame kind, again = some (frame, kind) → kind.next = kind

theorem isSteady_none : IsSteady none := by
  simp [IsSteady]

theorem isSteady_next (frame : Frame) (kind : Kind) : IsSteady (some (frame, kind.next)) := by
  intro f k h
  cases h
  exact kind.next_next

/-- Soundness, by induction on the reader. What it repeats is always what follows a first group, so
that the groups after one another fit together. -/
theorem derives_of_readFrom {length : Nat} {again : Option (Frame × Kind)} {s : List Char}
    {cs : List (Command Float)} (hagain : IsSteady again) (h : readFrom length again s = .ok cs) :
    Derives again s cs := by
  fun_induction readFrom length again s generalizing cs with
  | case1 again s hs =>
    cases h
    obtain ⟨gap, hgap, hsplit⟩ := exists_gap s
    rw [hs, List.append_nil] at hsplit
    rw [hsplit]
    exact .inl (.done hgap)
  | case2 | case4 | case6 | case7 | case9 => cases h
  | case3 again s c rest hs hletter hc ih =>
    obtain ⟨cs', hrest, rfl⟩ := exists_of_map_eq_ok h
    obtain ⟨gap, hgap, rfl⟩ := exists_gap_of_skipSeparators hs
    rcases ih isSteady_none hrest with hdata | ⟨_, _, hnone, -⟩
    · exact .inl (.close hgap (ofChar?_eq_close_iff.1 hc) hdata)
    · cases hnone
  | case5 again s c rest hs hletter frame kind hc command rest' hg ih =>
    obtain ⟨cs', hrest, rfl⟩ := exists_of_map_eq_ok h
    obtain ⟨gap, hgap, rfl⟩ := exists_gap_of_skipSeparators hs
    obtain ⟨cs₁, t, cs₂, hgroups, hdata, heq⟩ :=
      exists_groupsAt_of_derives (readGroup_eq_ok_iff.1 hg) (ih (isSteady_next frame kind) hrest)
    rw [heq]
    exact .inl (.draw hgap (ofChar?_eq_draw_iff.1 hc) hgroups hdata)
  | case8 s c rest hs hletter hstart frame kind command rest' hg ih =>
    obtain ⟨cs', hrest, rfl⟩ := exists_of_map_eq_ok h
    have hfix : kind.next = kind := hagain frame kind rfl
    have hgroup : GroupAt frame kind s command rest' := by
      rw [← groupAt_skipSeparators, hs]
      exact readGroup_eq_ok_iff.1 hg
    have hderives := ih hagain hrest
    rw [← hfix] at hderives
    exact .inr ⟨frame, kind, rfl, exists_groupsAt_of_derives hgroup hderives⟩

/-! ### The turns of the reader -/

theorem readFrom_gap {length : Nat} {again : Option (Frame × Kind)} {s : List Char}
    (hs : skipSeparators s = []) : readFrom length again s = .ok [] := by
  unfold readFrom
  split
  · rfl
  · next h => rw [hs] at h; cases h

theorem readFrom_close {length : Nat} {again : Option (Frame × Kind)} {s rest : List Char} {c : Char}
    (hs : skipSeparators s = c :: rest) (hc : c ∈ ['Z', 'z']) :
    readFrom length again s = (Command.close :: ·) <$> readFrom length none rest := by
  have hletter : isLetter c = true := by
    simp only [List.mem_cons, List.not_mem_nil, or_false] at hc
    rcases hc with rfl | rfl <;> decide
  conv => lhs; unfold readFrom
  split
  · next h => rw [hs] at h; cases h
  · next h =>
    rw [hs] at h
    cases h
    rw [if_pos hletter]
    split
    · next h => rw [ofChar?_eq_close_iff.2 hc] at h; cases h
    · rfl
    · next h => rw [ofChar?_eq_close_iff.2 hc] at h; cases h

theorem readFrom_draw {length : Nat} {again : Option (Frame × Kind)} {s rest rest' : List Char}
    {c : Char} {frame : Frame} {kind : Kind} {command : Command Float}
    (hs : skipSeparators s = c :: rest) (hc : (c, frame, kind) ∈ drawingLetters)
    (hg : GroupAt frame kind rest command rest') :
    readFrom length again s =
      (command :: ·) <$> readFrom length (some (frame, kind.next)) rest' := by
  have hg' : readGroup length frame kind rest = .ok (command, rest') := readGroup_eq_ok_iff.2 hg
  conv => lhs; unfold readFrom
  split
  · next h => rw [hs] at h; cases h
  · next h =>
    rw [hs] at h
    cases h
    rw [if_pos (isLetter_drawingLetters _ hc)]
    split
    · next h => rw [ofChar?_eq_draw_iff.2 hc] at h; cases h
    · next h => rw [ofChar?_eq_draw_iff.2 hc] at h; cases h
    · next h =>
      rw [ofChar?_eq_draw_iff.2 hc] at h
      cases h
      split
      · next h => rw [hg'] at h; cases h
      · next h => rw [hg'] at h; cases h; rfl

theorem readFrom_repeat {length : Nat} {s rest : List Char} {frame : Frame} {kind : Kind}
    {command : Command Float} (hg : GroupAt frame kind s command rest) :
    readFrom length (some (frame, kind)) s =
      (command :: ·) <$> readFrom length (some (frame, kind)) rest := by
  have hstart := startsNumber_of_groupAt hg
  obtain ⟨c, s', hs, -, hletter⟩ := exists_cons_of_startsNumber hstart
  have hg' : readGroup length frame kind (skipSeparators s) = .ok (command, rest) :=
    readGroup_eq_ok_iff.2 (groupAt_skipSeparators.2 hg)
  conv => lhs; unfold readFrom
  split
  · next h => rw [hs] at h; cases h
  · next h =>
    rw [hs] at hstart hg' h
    cases h
    rw [if_neg (by rw [hletter]; exact Bool.false_ne_true), if_pos hstart]
    simp only
    split
    · next h => rw [hg'] at h; cases h
    · next h => rw [hg'] at h; cases h; rfl

/-! ### Completeness -/

/-- Groups that repeat are read one after the other, whatever is read after them. -/
theorem readFrom_of_groupsAt {length : Nat} {frame : Frame} {kind : Kind} {s s' : List Char}
    {cs cs' : List (Command Float)} (h : GroupsAt frame kind s cs s') (hfix : kind.next = kind)
    (hrest : readFrom length (some (frame, kind)) s' = .ok cs') :
    readFrom length (some (frame, kind)) s = .ok (cs ++ cs') := by
  induction h with
  | last hg =>
    rw [readFrom_repeat hg, hrest]
    rfl
  | more hg hgs ih =>
    rw [← Kind.next_eq, hfix] at ih
    rw [readFrom_repeat hg, ih hfix hrest]
    rfl

/-- A segment does not look at what could be repeated before it. -/
theorem readFrom_of_pathData {length : Nat} {s : List Char} {cs : List (Command Float)}
    (h : PathData s cs) : ∀ again, readFrom length again s = .ok cs := by
  induction h with
  | done hgap =>
    intro again
    exact readFrom_gap (skipSeparators_gap hgap)
  | @close gap c s cs hgap hc _ ih =>
    intro again
    have hs : skipSeparators (gap ++ c :: s) = c :: s := by
      rw [skipSeparators_append hgap]
      simp only [List.mem_cons, List.not_mem_nil, or_false] at hc
      rcases hc with rfl | rfl <;> exact skipSeparators_cons (by decide) s
    rw [readFrom_close hs hc, ih]
    rfl
  | @draw gap c frame kind s cs s' cs' hgap hc hgroups _ ih =>
    intro again
    have hs : skipSeparators (gap ++ c :: s) = c :: s := by
      rw [skipSeparators_append hgap]
      exact skipSeparators_cons (isSeparator_drawingLetters _ hc) s
    cases hgroups with
    | last hg =>
      rw [readFrom_draw hs hc hg, ih]
      rfl
    | more hg hgroups =>
      rw [← Kind.next_eq] at hgroups
      rw [readFrom_draw hs hc hg, readFrom_of_groupsAt hgroups kind.next_next (ih _)]
      rfl

/-- **The grammar of path data.** A text is read to some commands exactly when it has a derivation with
these commands. -/
theorem parse_eq_ok_iff (data : String) (cs : List (Command Float)) :
    parse data = .ok cs ↔ PathData data.toList cs := by
  constructor
  · intro h
    rcases derives_of_readFrom (fun _ _ hnone => by cases hnone) h with h | ⟨_, _, hnone, -⟩
    · exact h
    · cases hnone
  · intro h
    exact readFrom_of_pathData h none

end VectorIcon.Path
