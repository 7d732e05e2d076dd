import VectorIcon.Proofs.Path.Locality

/-!
# The first fault of path data

A run of the reader goes through complete commands, after which it is at the end of the text or at a fault
(`exists_commandsAt`). A fault is a letter that no command has, or it stands after the beginning of one
more command (`Unfinished`), where the text goes on with something else than the argument that comes next
(`Refuses`). What is read before a fault does not look beyond it, so it can be read alone
(`parse_error_at_first_fault`).
-/

namespace VectorIcon.Path

open Text Number

/-! ## Faults -/

/-- The text does not begin with an argument for the slot, and why. -/
inductive Refuses : Slot → List Char → Fault → Prop
  | number {s} : (∀ n rest, ¬ Munches s n rest) → Refuses .number s .expectedNumber
  | outOfRange {w n rest} : Munches (w ++ rest) n rest → isFinite n.toFloat = false →
      Refuses .number (w ++ rest) (.outOfRange (String.ofList w))
  | flag {s} : s.head? ≠ some '0' → s.head? ≠ some '1' → Refuses .flag s .expectedFlag

/-- The text is arguments for the first of some slots, and the rest refuses the next one. -/
def Breaks (slots : List Slot) (s rest : List Char) (fault : Fault) : Prop :=
  ∃ given slot missing as gap, slots = given ++ slot :: missing ∧ ArgumentsAt given s as gap ∧
    IsGap gap ∧ Refuses slot rest fault

/-- After commands that leave `again` to be repeated, the text is the beginning of one more command, or
just a gap, and the rest does not go on with it. -/
inductive Unfinished (again : Option (Frame × Kind)) : List Char → List Char → Fault → Prop
  | letter {gap c frame kind s rest fault} : IsGap gap → (c, frame, kind) ∈ drawingLetters →
      Breaks kind.slots s rest fault → Unfinished again (gap ++ c :: s) rest fault
  | more {frame kind s rest fault} : again = some (frame, kind) →
      startsNumber (skipSeparators (s ++ rest)) = true → Breaks kind.slots s rest fault →
      Unfinished again s rest fault
  | missingCommand {gap rest} : IsGap gap → again = none → startsNumber rest = true →
      Unfinished again gap rest .missingCommand
  | unexpectedCharacter {gap c t} : IsGap gap → isSeparator c = false → isLetter c = false →
      startsNumber (c :: t) = false → Unfinished again gap (c :: t) .unexpectedCharacter

/-- The text goes on with a fault. -/
inductive FaultAt (length : Nat) (again : Option (Frame × Kind)) : List Char → Error → Prop
  | unknownCommand {gap c t} : IsGap gap → isLetter c = true → Letter.ofChar? c = none →
      FaultAt length again (gap ++ c :: t) (.unknownCommand c (length - (c :: t).length))
  | malformed {s rest fault} : Unfinished again s rest fault →
      FaultAt length again (s ++ rest) (.malformed fault (excerpt rest))

/-! ## Arguments -/

theorem refuses_of_scanNumber {s : List Char} {e : Error} (h : scanNumber s = .error e) :
    ∃ fault, Refuses .number (skipSeparators s) fault ∧
      e = .malformed fault (excerpt (skipSeparators s)) := by
  unfold scanNumber at h
  cases hscan : scan? (skipSeparators s) with
  | none =>
    simp only [hscan] at h
    cases h
    refine ⟨_, .number fun n rest hn => ?_, rfl⟩
    rw [scan?_eq_some_iff.2 hn] at hscan
    cases hscan
  | some p =>
    obtain ⟨n, rest⟩ := p
    simp only [hscan] at h
    unfold finite? at h
    cases hfinite : isFinite n.toFloat with
    | true =>
      rw [hfinite] at h
      cases h
    | false =>
      rw [hfinite] at h
      cases h
      have hn := scan?_eq_some_iff.1 hscan
      obtain ⟨w, hw, -⟩ := id hn
      rw [hw] at hn ⊢
      have hwritten : (w ++ rest).take ((w ++ rest).length - rest.length) = w := by simp
      rw [hwritten]
      exact ⟨_, .outOfRange hn hfinite, rfl⟩

theorem refuses_of_scanFlag {s : List Char} {e : Error} (h : scanFlag s = .error e) :
    ∃ fault, Refuses .flag (skipSeparators s) fault ∧
      e = .malformed fault (excerpt (skipSeparators s)) := by
  unfold scanFlag at h
  split at h
  · cases h
  · cases h
  · next h0 h1 =>
    cases h
    refine ⟨_, .flag (fun hhead => ?_) (fun hhead => ?_), rfl⟩
    · obtain ⟨t, ht⟩ := List.head?_eq_some_iff.1 hhead
      exact h0 t ht
    · obtain ⟨t, ht⟩ := List.head?_eq_some_iff.1 hhead
      exact h1 t ht

theorem refuses_of_scanArgument {slot : Slot} {s : List Char} {e : Error}
    (h : scanArgument slot s = .error e) :
    ∃ fault, Refuses slot (skipSeparators s) fault ∧
      e = .malformed fault (excerpt (skipSeparators s)) := by
  cases slot with
  | number => exact refuses_of_scanNumber (eq_error_of_map h)
  | flag => exact refuses_of_scanFlag (eq_error_of_map h)

/-- Where the arguments of a group end early, those before are read and the next one is refused. -/
theorem exists_of_scanArguments_error {slots : List Slot} {s : List Char} {e : Error}
    (h : scanArguments slots s = .error e) :
    ∃ given slot missing as gap rest fault, slots = given ++ slot :: missing ∧
      ArgumentsAt given s as (gap ++ rest) ∧ IsGap gap ∧ Refuses slot rest fault ∧
      e = .malformed fault (excerpt rest) := by
  induction slots generalizing s with
  | nil => cases h
  | cons slot slots ih =>
    cases ha : scanArgument slot s with
    | error e' =>
      simp only [scanArguments, bind, Except.bind, ha] at h
      cases h
      obtain ⟨fault, hrefuses, he⟩ := refuses_of_scanArgument ha
      obtain ⟨gap, hgap, hsplit⟩ := exists_gap s
      refine ⟨[], slot, slots, [], gap, skipSeparators s, fault, rfl, ?_, hgap, hrefuses, he⟩
      rw [← hsplit]
      exact .nil
    | ok p =>
      obtain ⟨a, s'⟩ := p
      have hs : scanArguments slots s' = .error e := by
        cases hs : scanArguments slots s' with
        | error e' =>
          simp only [scanArguments, bind, Except.bind, ha, hs] at h
          cases h
          rfl
        | ok q => rw [scanArguments_cons ha hs] at h; cases h
      obtain ⟨given, slot', missing, as, gap, rest, fault, hslots, hgiven, hrest⟩ := ih hs
      have hall := scanArguments_cons ha (scanArguments_eq_ok_iff.2 hgiven)
      exact ⟨slot :: given, slot', missing, a :: as, gap, rest, fault, by rw [hslots]; rfl,
        scanArguments_eq_ok_iff.1 hall, hrest⟩

/-! ## Groups -/

/-- The slot that an argument fills. -/
def Argument.slot {α : Type} : Argument α → Slot
  | .number _ => .number
  | .flag _ => .flag

theorem map_slot_of_argumentsAt {slots : List Slot} {s rest : List Char} {as : List (Argument Float)}
    (h : ArgumentsAt slots s as rest) : as.map Argument.slot = slots := by
  induction h with
  | nil => rfl
  | cons _ ha _ ih =>
    rw [List.map_cons, ih]
    cases ha <;> rfl

/-- Arguments for the slots of a command make one. -/
theorem exists_of_map_slot {α : Type} (frame : Frame) {kind : Kind} {as : List (Argument α)}
    (h : as.map Argument.slot = kind.slots) :
    ∃ command, Command.ofArguments? (.draw frame kind) as = some command := by
  match kind, as, h with
  | .moveTo, [.number _, .number _], _ => exact ⟨_, rfl⟩
  | .lineTo, [.number _, .number _], _ => exact ⟨_, rfl⟩
  | .horizontalTo, [.number _], _ => exact ⟨_, rfl⟩
  | .verticalTo, [.number _], _ => exact ⟨_, rfl⟩
  | .curveTo, [.number _, .number _, .number _, .number _, .number _, .number _], _ => exact ⟨_, rfl⟩
  | .quadTo, [.number _, .number _, .number _, .number _], _ => exact ⟨_, rfl⟩
  | .smoothCurveTo, [.number _, .number _, .number _, .number _], _ => exact ⟨_, rfl⟩
  | .smoothQuadTo, [.number _, .number _], _ => exact ⟨_, rfl⟩
  | .arcTo, [.number _, .number _, .number _, .flag _, .flag _, .number _, .number _], _ =>
    exact ⟨_, rfl⟩

/-- A group that cannot be read breaks off at an argument: the arguments that a letter asks for always
make a command. -/
theorem exists_of_readGroup_error {length : Nat} {frame : Frame} {kind : Kind} {s : List Char}
    {e : Error} (h : readGroup length frame kind s = .error e) :
    ∃ w rest fault, s = w ++ rest ∧ Breaks kind.slots w rest fault ∧
      e = .malformed fault (excerpt rest) := by
  unfold readGroup at h
  cases hscan : scanArguments kind.slots s with
  | ok p =>
    obtain ⟨as, rest⟩ := p
    obtain ⟨command, hcommand⟩ :=
      exists_of_map_slot frame (map_slot_of_argumentsAt (scanArguments_eq_ok_iff.1 hscan))
    simp only [hscan, bind, Except.bind, hcommand] at h
    cases h
  | error e' =>
    simp only [hscan, bind, Except.bind] at h
    cases h
    obtain ⟨given, slot, missing, as, gap, rest, fault, hslots, hgiven, hgap, hrefuses, he⟩ :=
      exists_of_scanArguments_error hscan
    obtain ⟨w, rfl, -, hread⟩ := isLocal_argumentsAt given as s _ hgiven
    refine ⟨w ++ gap, rest, fault, by simp, ?_, he⟩
    have halike : StopAlike (gap ++ rest) gap := stopAlike_of_begins (List.prefix_append ..)
    exact ⟨given, slot, missing, as, gap, hslots, hread gap halike, hgap, hrefuses⟩

/-- A gap before a group is a part of its first argument's gap. -/
theorem readGroup_skipSeparators (length : Nat) (frame : Frame) (kind : Kind) (s : List Char) :
    readGroup length frame kind (skipSeparators s) = readGroup length frame kind s := by
  obtain ⟨slots, hslots⟩ := kind.exists_slots_eq
  have hscan : scanNumber (skipSeparators s) = scanNumber s := by
    unfold scanNumber
    rw [skipSeparators_idem]
  unfold readGroup
  rw [hslots]
  simp only [scanArguments, scanArgument, hscan]

/-! ## Runs -/

/-- After some commands and no others the text is at its end, or goes on with a fault. -/
def Ends (length : Nat) (again : Option (Frame × Kind)) (cs : List (Command Float))
    (rest : List Char) (result : Except Error (List (Command Float))) : Prop :=
  (IsGap rest ∧ result = .ok cs) ∨ ∃ e, FaultAt length again rest e ∧ result = .error e

theorem Ends.cons {length : Nat} {again : Option (Frame × Kind)} {cs : List (Command Float)}
    {rest : List Char} {result : Except Error (List (Command Float))}
    (h : Ends length again cs rest result) (c : Command Float) :
    Ends length again (c :: cs) rest ((c :: ·) <$> result) := by
  rcases h with ⟨hgap, rfl⟩ | ⟨e, he, rfl⟩
  · exact .inl ⟨hgap, rfl⟩
  · exact .inr ⟨e, he, rfl⟩

theorem repeatedAfter_cons_of_groupAt {frame : Frame} {kind : Kind} {s rest : List Char}
    {command : Command Float} (h : GroupAt frame kind s command rest) (again : Option (Frame × Kind))
    (cs : List (Command Float)) :
    repeatedAfter again (command :: cs) = repeatedAfter (some (frame, kind.next)) cs := by
  have hcommand : command.repeated? = some (frame, kind.next) := by
    rw [Command.repeated?, h.1]
  rw [repeatedAfter, List.foldl_cons, hcommand, repeatedAfter]

theorem exists_of_faultAt {length : Nat} {again : Option (Frame × Kind)} {s : List Char} {e : Error}
    (h : FaultAt length again s e) :
    ∃ cs rest, CommandsAt again s cs rest ∧ Ends length (repeatedAfter again cs) cs rest (.error e) :=
  ⟨[], s, .done, .inr ⟨e, h, rfl⟩⟩

theorem isSeparator_of_skipSeparators {s rest : List Char} {c : Char}
    (h : skipSeparators s = c :: rest) : isSeparator c = false := by
  have := List.head?_dropWhile_not isSeparator s
  unfold skipSeparators at h
  rwa [h] at this

/-- A run goes through complete commands, and then it is at the end of the text or at a fault. -/
theorem exists_commandsAt (length : Nat) {again : Option (Frame × Kind)} (s : List Char)
    (hagain : IsSteady again) :
    ∃ cs rest, CommandsAt again s cs rest ∧
      Ends length (repeatedAfter again cs) cs rest (readFrom length again s) := by
  -- a turn that reads a command puts it before those of the later turns; any other turn is the last
  fun_induction readFrom length again s with
  | case1 again s hs =>
    obtain ⟨gap, hgap, hsplit⟩ := exists_gap s
    rw [hs, List.append_nil] at hsplit
    rw [hsplit]
    exact ⟨[], gap, .done, .inl ⟨hgap, rfl⟩⟩
  | case2 again s c rest hs hletter hc =>
    obtain ⟨gap, hgap, rfl⟩ := exists_gap_of_skipSeparators hs
    exact exists_of_faultAt (.unknownCommand hgap hletter hc)
  | case3 again s c rest hs hletter hc ih =>
    obtain ⟨gap, hgap, rfl⟩ := exists_gap_of_skipSeparators hs
    obtain ⟨cs, rest', hcs, hends⟩ := ih isSteady_none
    exact ⟨.close :: cs, rest', .close hgap (ofChar?_eq_close_iff.1 hc) hcs, hends.cons _⟩
  | case4 again s c rest hs hletter frame kind hc e hg =>
    obtain ⟨gap, hgap, rfl⟩ := exists_gap_of_skipSeparators hs
    obtain ⟨w, rest', fault, rfl, hbreaks, rfl⟩ := exists_of_readGroup_error hg
    have hassoc : gap ++ c :: (w ++ rest') = gap ++ c :: w ++ rest' := by simp
    rw [hassoc]
    exact exists_of_faultAt (.malformed (.letter hgap (ofChar?_eq_draw_iff.1 hc) hbreaks))
  | case5 again s c rest hs hletter frame kind hc command rest' hg ih =>
    obtain ⟨gap, hgap, rfl⟩ := exists_gap_of_skipSeparators hs
    have hgroup := readGroup_eq_ok_iff.1 hg
    obtain ⟨cs, rest'', hcs, hends⟩ := ih (isSteady_next frame kind)
    refine ⟨command :: cs, rest'', .letter hgap (ofChar?_eq_draw_iff.1 hc) hgroup hcs, ?_⟩
    rw [repeatedAfter_cons_of_groupAt hgroup]
    exact hends.cons command
  | case6 s c rest hs hletter hstart =>
    obtain ⟨gap, hgap, rfl⟩ := exists_gap_of_skipSeparators hs
    exact exists_of_faultAt (.malformed (.missingCommand hgap rfl hstart))
  | case7 s c rest hs hletter hstart frame kind e hg =>
    rw [← hs] at hstart hg
    rw [readGroup_skipSeparators] at hg
    obtain ⟨w, rest', fault, rfl, hbreaks, rfl⟩ := exists_of_readGroup_error hg
    exact exists_of_faultAt (.malformed (.more rfl hstart hbreaks))
  | case8 s c rest hs hletter hstart frame kind command rest' hg ih =>
    rw [← hs, readGroup_skipSeparators] at hg
    have hgroup := readGroup_eq_ok_iff.1 hg
    -- the reader repeats `kind` itself here, and a sequence of commands `kind.next`
    have hfix : kind.next = kind := hagain frame kind rfl
    obtain ⟨cs, rest'', hcs, hends⟩ := ih hagain
    refine ⟨command :: cs, rest'', .more hgroup (hfix.symm ▸ hcs), ?_⟩
    rw [repeatedAfter_cons_of_groupAt hgroup, hfix]
    exact hends.cons command
  | case9 again s c rest hs hletter hstart =>
    obtain ⟨gap, hgap, rfl⟩ := exists_gap_of_skipSeparators hs
    refine exists_of_faultAt (.malformed (.unexpectedCharacter hgap ?_ ?_ ?_))
    · exact isSeparator_of_skipSeparators hs
    · exact Bool.not_eq_true _ ▸ hletter
    · exact Bool.not_eq_true _ ▸ hstart

theorem isSeparator_close : ∀ c ∈ ['Z', 'z'], isSeparator c = false := by
  simp [isSeparator]

/-- Complete commands at the start of a text are read first, whatever comes after them. -/
theorem readFrom_of_commandsAt {length : Nat} {again : Option (Frame × Kind)} {s rest : List Char}
    {cs : List (Command Float)} (h : CommandsAt again s cs rest) (hagain : IsSteady again) :
    readFrom length again s = (cs ++ ·) <$> readFrom length (repeatedAfter again cs) rest := by
  have hmap (c : Command Float) (cs : List (Command Float))
      (x : Except Error (List (Command Float))) :
      (c :: ·) <$> (cs ++ ·) <$> x = (c :: cs ++ ·) <$> x := by
    cases x <;> rfl
  induction h with
  | done =>
    cases hresult : readFrom length _ _ <;> rw [repeatedAfter, List.foldl_nil, hresult] <;> rfl
  | @close again gap c s cs rest hgap hc hs ih =>
    have hstart : skipSeparators (gap ++ c :: s) = c :: s := by
      rw [skipSeparators_append hgap, skipSeparators_cons (isSeparator_close c hc)]
    rw [readFrom_close hstart hc, ih isSteady_none, hmap]
    rfl
  | @letter again gap c frame kind s command s' cs rest hgap hc hg hs ih =>
    have hstart : skipSeparators (gap ++ c :: s) = c :: s := by
      rw [skipSeparators_append hgap, skipSeparators_cons (isSeparator_drawingLetters _ hc)]
    rw [readFrom_draw hstart hc hg, ih (isSteady_next frame kind), hmap,
      repeatedAfter_cons_of_groupAt hg]
  | @more frame kind s command s' cs rest hg hs ih =>
    have hfix : kind.next = kind := hagain frame kind rfl
    rw [readFrom_repeat hg, repeatedAfter_cons_of_groupAt hg, ← hmap, ← ih (isSteady_next frame kind),
      hfix]

theorem parse_of_commandsAt {w gap : List Char} {cs : List (Command Float)}
    (h : CommandsAt none w cs gap) (hgap : IsGap gap) : parse (String.ofList w) = .ok cs := by
  rw [parse, String.toList_ofList, readFrom_of_commandsAt h isSteady_none,
    readFrom_gap (skipSeparators_gap hgap)]
  show Except.ok (cs ++ []) = Except.ok cs
  rw [List.append_nil]

/-- Path data is ASCII, and is read in the same way when another text follows it that stops numerals. -/
theorem exists_of_parse_ok {data : String} {cs : List (Command Float)} (h : parse data = .ok cs) :
    ∃ w gap, data.toList = w ++ gap ∧ IsAscii data.toList ∧ IsGap gap ∧
      ∀ t, StopAlike gap t → CommandsAt none (w ++ t) cs t := by
  obtain ⟨cs', gap, hcs, hends⟩ := exists_commandsAt data.toList.length data.toList isSteady_none
  rw [← parse, h] at hends
  obtain ⟨w, hw, hascii, hread⟩ := isLocal_commandsAt none cs' _ _ hcs
  rcases hends with ⟨hgap, hok⟩ | ⟨e, -, he⟩
  · cases hok
    refine ⟨w, gap, hw, ?_, hgap, hread⟩
    rw [hw]
    exact hascii.append (isAscii_gap hgap)
  · cases he

/-- What is read before a fault is read in the same way when the text is cut short after it. -/
theorem exists_of_parse_error {data : String} {e : Error} (h : parse data = .error e) :
    ∃ w t cs, data.toList = w ++ t ∧ IsAscii w ∧
      FaultAt data.toList.length (repeatedAfter none cs) t e ∧
      ∀ t', t' <+: t → CommandsAt none (w ++ t') cs t' := by
  obtain ⟨cs, t, hcs, hends⟩ := exists_commandsAt data.toList.length data.toList isSteady_none
  rw [← parse, h] at hends
  obtain ⟨w, hw, hascii, hread⟩ := isLocal_commandsAt none cs _ _ hcs
  rcases hends with ⟨-, hok⟩ | ⟨e', hfault, he⟩
  · cases hok
  · cases he
    exact ⟨w, t, cs, hw, hascii, hfault, fun t' ht' => hread t' (stopAlike_of_begins ht')⟩

theorem excerpt_cases (rest : String) :
    rest = "" ∧ excerpt rest.toList = "<end of input>" ∨
      rest ≠ "" ∧ excerpt rest.toList = String.ofList (rest.toList.take 16) := by
  unfold excerpt
  split
  · next h => exact .inl ⟨String.toList_eq_nil_iff.1 (List.isEmpty_iff.1 h), rfl⟩
  · next h =>
    refine .inr ⟨fun hempty => h ?_, rfl⟩
    rw [hempty]
    rfl

/-- A letter that no command has is reported with its place, and all before it is path data. -/
theorem exists_of_parse_unknownCommand {data : String} {c : Char} {offset : Nat}
    (h : parse data = .error (.unknownCommand c offset)) :
    ∃ before after, data = before ++ String.singleton c ++ after ∧ before.utf8ByteSize = offset ∧
      isLetter c = true ∧ arity? c = none ∧ ∃ cs, parse before = .ok cs := by
  obtain ⟨w, t, cs, hdata, hascii, hfault, hread⟩ := exists_of_parse_error h
  cases hfault with
  | @unknownCommand gap c t hgap hletter hc =>
    have hbefore := hread gap (List.prefix_append ..)
    have hsplit : data = String.ofList (w ++ gap) ++ String.singleton c ++ String.ofList t := by
      refine String.toList_inj.1 ?_
      simp [hdata]
    refine ⟨String.ofList (w ++ gap), String.ofList t, hsplit, ?_, hletter, ?_, cs,
      parse_of_commandsAt hbefore hgap⟩
    · rw [utf8ByteSize_of_isAscii (hascii.append (isAscii_gap hgap)), hdata]
      simp only [List.length_append]
      omega
    · rw [arity?, hc]
      rfl

/-- Any other error is reported with the text that follows complete commands and, perhaps, the beginning
of one more. -/
theorem exists_of_parse_malformed {data near : String} {fault : Fault}
    (h : parse data = .error (.malformed fault near)) :
    ∃ complete unfinished rest cs, data = complete ++ unfinished ++ rest ∧ near = excerpt rest.toList ∧
      parse complete = .ok cs ∧
      Unfinished (repeatedAfter none cs) unfinished.toList rest.toList fault := by
  obtain ⟨w, t, cs, hdata, -, hfault, hread⟩ := exists_of_parse_error h
  cases hfault with
  | @malformed s rest fault hunfinished =>
    have hcomplete := hread [] List.nil_prefix
    rw [List.append_nil] at hcomplete
    refine ⟨String.ofList w, String.ofList s, String.ofList rest, cs, ?_, ?_,
      parse_of_commandsAt hcomplete nofun, ?_⟩
    · refine String.toList_inj.1 ?_
      simp [hdata]
    · rw [String.toList_ofList]
    · rw [String.toList_ofList, String.toList_ofList]
      exact hunfinished

/-- **Errors point at the first fault.** An unknown letter is at the byte that is reported, and all before
it is path data. Any other error is reported with the text where it occurs, or with words for the end of
the text; before it stand complete commands and no more than the beginning of one more, which the text
does not go on with. Reading the arguments of a command never ends with an unknown letter. -/
theorem parse_error_at_first_fault (data : String) :
    (∀ c offset, parse data = .error (.unknownCommand c offset) →
      data.toByteArray[offset]? = some c.val.toUInt8 ∧ isLetter c = true ∧ arity? c = none ∧
      ∃ before after cs, data = before ++ String.singleton c ++ after ∧
        before.utf8ByteSize = offset ∧ parse before = .ok cs) ∧
    (∀ fault near, parse data = .error (.malformed fault near) →
      ∃ complete unfinished rest cs, data = complete ++ unfinished ++ rest ∧
        (rest = "" ∧ near = "<end of input>" ∨
          rest ≠ "" ∧ near = String.ofList (rest.toList.take 16)) ∧
        parse complete = .ok cs ∧
        Unfinished (repeatedAfter none cs) unfinished.toList rest.toList fault) ∧
    ∀ length frame kind s c offset,
      readGroup length frame kind s ≠ .error (.unknownCommand c offset) := by
  refine ⟨fun c offset h => ?_, fun fault near h => ?_, fun length frame kind s c offset h => ?_⟩
  · obtain ⟨before, after, hdata, hoffset, hletter, harity, cs, hcs⟩ := exists_of_parse_unknownCommand h
    refine ⟨?_, hletter, harity, before, after, cs, hdata, hoffset, hcs⟩
    rw [hdata, ← hoffset]
    exact toByteArray_between before after (val_le_of_isLetter hletter)
  · obtain ⟨complete, unfinished, rest, cs, hdata, rfl, hcs⟩ := exists_of_parse_malformed h
    exact ⟨complete, unfinished, rest, cs, hdata, excerpt_cases rest, hcs⟩
  · obtain ⟨w, rest, fault, -, -, he⟩ := exists_of_readGroup_error h
    cases he

/-- The error of a text that is no path data. -/
def error? (data : String) : Option Error :=
  match parse data with
  | .ok _ => none
  | .error e => some e

theorem parse_of_error? {data : String} {e : Error} (h : error? data = some e) :
    parse data = .error e := by
  unfold error? at h
  split at h
  · cases h
  · next he =>
    cases h
    exact he

theorem exists_of_error?_eq_none {data : String} (h : error? data = none) :
    ∃ cs, parse data = .ok cs := by
  unfold error? at h
  split at h
  · next cs hcs => exact ⟨cs, hcs⟩
  · cases h

/-- A second point that lacks a coordinate, and a letter that no command has after a closed line. -/
theorem parse_error_at_first_fault_broken :
    parse "M0 0 5 é" = .error (.malformed .expectedNumber "é") ∧
    parse "M0 0-1.5e1.5zB" = .error (.unknownCommand 'B' 13) ∧
    (∃ complete unfinished rest cs, "M0 0 5 é" = complete ++ unfinished ++ rest ∧
      (rest = "" ∧ "é" = "<end of input>" ∨
        rest ≠ "" ∧ "é" = String.ofList (rest.toList.take 16)) ∧
      parse complete = .ok cs ∧
      Unfinished (repeatedAfter none cs) unfinished.toList rest.toList .expectedNumber) ∧
    "M0 0-1.5e1.5zB".toByteArray[13]? = some 'B'.val.toUInt8 := by
  have hbroken : parse "M0 0 5 é" = .error (.malformed .expectedNumber "é") :=
    parse_of_error? (by decide +kernel)
  have hletter : parse "M0 0-1.5e1.5zB" = .error (.unknownCommand 'B' 13) :=
    parse_of_error? (by decide +kernel)
  exact ⟨hbroken, hletter, (parse_error_at_first_fault _).2.1 _ _ hbroken,
    ((parse_error_at_first_fault _).1 _ _ hletter).1⟩

end VectorIcon.Path
