import VectorIcon.Proofs.Path.Cursor
import VectorIcon.Proofs.Path.FirstFault

/-!
# Path data is read safely

The cursor reads path data as `parse` does, and nothing goes wrong on the way (`read_is_safe`).

1. A letter asks for as many arguments as it has slots, and for flags where the slots are for flags
   (`letter_facts`). So arguments are stored within the buffer and found there again (`yields_arguments`,
   `mapM_slot`), and a group always makes a command (`yields_group`).
2. One turn reads one command, by the cases of `readFrom` (`yields_turn`). What the turns keep is that the commands so
   far and those that are left make the result (`IsLeft`).
-/

namespace VectorIcon.Path

/-- The number that stands for an argument; for a flag zero or one. -/
def Argument.value : Argument Float → Float
  | .number v => v
  | .flag isSet => if isSet then 1.0 else 0.0

theorem argument_slot_value (a : Argument Float) : Command.argument a.slot a.value = a := by
  cases a with
  | number v => rfl
  | flag isSet =>
    cases isSet with
    | false => exact congrArg Argument.flag (by decide)
    | true => exact congrArg Argument.flag (by decide)

namespace Cursor

open Text Number

variable {data : String} {c : Cursor} {rest : List Char} {letter : Char} {frame : Frame} {kind : Kind}
  {as : List (Argument Float)} {slots : List Float}

/-! ## Letters -/

/-- The flags of a letter are where the slots from an index on are for flags. -/
def HasFlags (letter : Char) (kinds : List Slot) (index : Nat) : Prop :=
  ∀ p ∈ kinds.zipIdx index, isFlagAt letter p.2 = (p.1 == .flag)

/-- What the reader knows of letters: where the flags are, how many slots are filled, and what is repeated. -/
theorem letter_facts (h : Letter.ofChar? letter = some (.draw frame kind)) :
    arity? letter = some kind.slots.length ∧ kind.slots.length ≤ capacity ∧
      HasFlags letter kind.slots 0 ∧ Letter.ofChar? (repeated letter) = some (.draw frame kind.next) := by
  have hall : ∀ entry ∈ drawingLetters, arity? entry.1 = some entry.2.2.slots.length ∧
      entry.2.2.slots.length ≤ capacity ∧
      (∀ p ∈ entry.2.2.slots.zipIdx, isFlagAt entry.1 p.2 = (p.1 == .flag)) ∧
      Letter.ofChar? (repeated entry.1) = some (.draw entry.2.1 entry.2.2.next) := by
    decide
  exact hall _ (ofChar?_eq_draw_iff.1 h)

/-! ## Arguments in their slots -/

/-- The slots after arguments are put into them from a slot on. -/
def stored (slots : List Float) : Nat → List (Argument Float) → List Float
  | _, [] => slots
  | index, a :: as => stored (slots.set index a.value) (index + 1) as

theorem length_stored (index : Nat) : (stored slots index as).length = slots.length := by
  induction as generalizing slots index with
  | nil => rfl
  | cons a as ih => rw [stored, ih, List.length_set]

theorem take_stored (slots : List Float) (index : Nat) (as : List (Argument Float))
    (h : index + as.length ≤ slots.length) :
    (stored slots index as).take (index + as.length) = slots.take index ++ as.map Argument.value := by
  induction as generalizing slots index with
  | nil => rw [stored, List.length_nil, Nat.add_zero, List.map_nil, List.append_nil]
  | cons a as ih =>
    rw [List.length_cons] at h
    have hslot : index < slots.length := by omega
    have hlength : index + 1 + as.length ≤ (slots.set index a.value).length := by
      rw [List.length_set]
      omega
    have hset : (slots.set index a.value).take (index + 1) = slots.take index ++ [a.value] := by
      rw [List.take_succ_eq_append_getElem (by rwa [List.length_set]), List.getElem_set_self,
        List.take_set_of_le (Nat.le_refl _)]
    rw [stored, List.length_cons, Nat.add_comm as.length, ← Nat.add_assoc, ih _ _ hlength, hset,
      List.append_assoc]
    rfl

theorem yields_argument {index : Nat} {slot : Slot} (hslot : isFlagAt letter index = (slot == .flag))
    (h : Stands data c rest) :
    Yields data (argument data letter index c)
      ((scanArgument slot rest).map fun p => (p.1.value, p.2)) := by
  unfold argument
  cases slot with
  | number =>
    have hvalue : (scanArgument .number rest).map (fun p => (p.1.value, p.2)) = scanNumber rest := by
      rw [scanArgument]
      cases scanNumber rest <;> rfl
    rw [if_neg (hslot ▸ by decide), hvalue]
    exact yields_number h
  | flag =>
    have hvalue : (scanArgument .flag rest).map (fun p => (p.1.value, p.2)) =
        scanFlag rest >>= fun p => .ok (if p.1 then 1.0 else 0.0, p.2) := by
      rw [scanArgument]
      cases scanFlag rest <;> rfl
    rw [if_pos (hslot ▸ by decide), hvalue]
    exact (yields_flag h).bind fun _ _ _ _ h => yields_pure h _

theorem scanArguments_cons_eq (slot : Slot) (kinds : List Slot) (s : List Char) :
    scanArguments (slot :: kinds) s =
      scanArgument slot s >>= fun p => (scanArguments kinds p.2).map fun q => (p.1 :: q.1, q.2) := by
  rw [scanArguments]
  cases scanArgument slot s with
  | error e => rfl
  | ok p =>
    show (scanArguments kinds p.2 >>= fun q => .ok (p.1 :: q.1, q.2)) = (scanArguments kinds p.2).map _
    cases scanArguments kinds p.2 <;> rfl

/-- What is left of the slots of a letter is filled with the arguments that come next. -/
def IsToFill (letter : Char) (state : List Nat × List Float) (rest : List Char)
    (x : Except Error (List Float × List Char)) : Prop :=
  ∃ index kinds, state.1 = List.range' index kinds.length ∧ index + kinds.length ≤ state.2.length ∧
    HasFlags letter kinds index ∧
    x = (scanArguments kinds rest).map fun p => (stored state.2 index p.1, p.2)

/-- The arguments of a letter are put into its slots one by one. -/
theorem yields_arguments {kinds : List Slot} (hkinds : HasFlags letter kinds 0)
    (hcount : kinds.length ≤ capacity) (h : Stands data c rest) :
    Yields data (arguments data letter kinds.length c)
      ((scanArguments kinds rest).map fun p => (stored (List.replicate capacity 0.0) 0 p.1, p.2)) := by
  refine yields_loop (P := IsToFill letter) (fun {state c rest x} hfill h => ?_)
    ⟨0, kinds, ?_, ?_, hkinds, rfl⟩ h
  · obtain ⟨indices, slots⟩ := state
    obtain ⟨index, kinds, rfl, hlength, hkinds, hx⟩ := hfill
    cases kinds with
    | nil => exact ⟨.ok (.done slots, rest), yields_pure h _, hx⟩
    | cons slot kinds =>
      have hlength : index + (kinds.length + 1) ≤ slots.length := hlength
      obtain ⟨hslot, hkinds⟩ := List.forall_mem_cons.1 hkinds
      have hinside : index < slots.length := by omega
      refine ⟨_, (yields_argument hslot h).bind
        (f := fun p => .ok (.again (List.range' (index + 1) kinds.length, slots.set index p.1), p.2))
        fun v c' rest' _ h => ?_, ?_⟩
      · rw [store, if_pos hinside]
        exact (yields_pure h _).next fun _ h => yields_pure h _
      · rw [scanArguments_cons_eq] at hx
        cases hscan : scanArgument slot rest with
        | error e =>
          rw [hscan] at hx
          exact hx
        | ok p =>
          rw [hscan] at hx
          refine ⟨length_lt_of_scanArgument hscan, index + 1, kinds, rfl, ?_, hkinds, hx.trans ?_⟩
          · rw [List.length_set]
            omega
          · show ((scanArguments kinds p.2).map fun q => (p.1 :: q.1, q.2)).map _ = _
            cases scanArguments kinds p.2 <;> rfl
  · rw [List.take_range, List.range_eq_range', Nat.min_eq_left hcount]
  · rwa [List.length_replicate, Nat.zero_add]

/-! ## Groups -/

/-- Values that stand for arguments are taken from their slots again. -/
theorem mapM_slot (values : List Float) (index : Nat) (as : List (Argument Float))
    (h : ∀ j, (as.map Argument.value)[j]? = values[index + j]?) :
    ((as.map Argument.slot).zipIdx index).mapM
      (fun p => return Command.argument p.1 (← slot values p.2) : Slot × Nat → Reading (Argument Float)) =
        pure as := by
  induction as generalizing index with
  | nil => rfl
  | cons a as ih =>
    have hfirst : slot values index = pure a.value := by
      rw [slot, ← Nat.add_zero index, ← h 0]
      rfl
    have hrest := ih (index + 1) fun j => by
      rw [Nat.add_assoc, Nat.add_comm 1, ← h (j + 1)]
      rfl
    rw [List.map_cons, List.zipIdx_cons, List.mapM_cons, hfirst, hrest, pure_bind, pure_bind, pure_bind,
      argument_slot_value]

theorem command?_eq (hletter : Letter.ofChar? letter = some (.draw frame kind))
    (has : as.map Argument.slot = kind.slots) :
    command? letter (as.map Argument.value) = pure (Command.ofArguments? (.draw frame kind) as) := by
  have hlength : (Letter.draw frame kind).slots.length = (as.map Argument.value).length := by
    rw [Letter.slots, ← has, List.length_map, List.length_map]
  have hvalues := mapM_slot (as.map Argument.value) 0 as fun j => by rw [Nat.zero_add]
  rw [has] at hvalues
  rw [command?, hletter]
  dsimp only
  rw [if_pos hlength]
  show (kind.slots.zipIdx.mapM _ >>= _) = _
  rw [hvalues, pure_bind]

theorem yields_firstSlots {count : Nat} (hcount : count ≤ slots.length) (h : Stands data c rest) :
    Yields data (firstSlots slots count c) (.ok (slots.take count, rest)) := by
  rw [firstSlots, if_pos hcount]
  exact yields_pure h _

/-- A group of arguments never needs more slots than there are, and always makes a command. -/
theorem yields_group (length : Nat) (hletter : Letter.ofChar? letter = some (.draw frame kind))
    (h : Stands data c rest) : Yields data (group data letter c) (readGroup length frame kind rest) := by
  obtain ⟨harity, hcount, hkinds, -⟩ := letter_facts hletter
  have harguments := yields_arguments hkinds hcount h
  unfold group
  rw [harity, Option.getD_some]
  cases hscan : scanArguments kind.slots rest with
  | error e =>
    rw [hscan] at harguments
    rw [readGroup, hscan]
    refine harguments.bind (f := fun _ => .error e) fun _ _ _ heq _ => ?_
    cases heq
  | ok p =>
    obtain ⟨as, rest'⟩ := p
    rw [hscan] at harguments
    have hread := scanArguments_eq_ok_iff.1 hscan
    have has := map_slot_of_argumentsAt hread
    obtain ⟨command, hcommand⟩ := exists_of_map_slot frame has
    obtain ⟨hshape, hsame⟩ := ofArguments?_eq_some_iff.1 hcommand
    rw [readGroup_eq_ok_iff.2 ⟨hshape, hsame.symm ▸ hread⟩]
    refine harguments.next fun _ h => ?_
    have htake := take_stored (List.replicate capacity 0.0) 0 as (by
      rw [Nat.zero_add, List.length_replicate, ← List.length_map, has]
      exact hcount)
    rw [Nat.zero_add, ← List.length_map, has, List.take_zero, List.nil_append] at htake
    have hstored : kind.slots.length ≤ (stored (List.replicate capacity 0.0) 0 as).length := by
      rw [length_stored, List.length_replicate]
      exact hcount
    refine (yields_firstSlots hstored h).next fun _ h => ?_
    rw [htake, command?_eq hletter has, hcommand]
    exact (yields_pure h _).next fun _ h => yields_pure h _

/-! ## Commands -/

/-- The letter is the one of the command that is repeated. -/
def Repeats (letter : Option Char) (again : Option (Frame × Kind)) : Prop :=
  letter.map Letter.ofChar? = again.map fun p => some (.draw p.1 p.2)

/-- What is read from here on comes after the commands that were read before. -/
def IsLeft (data : String) (state : Progress) (rest : List Char)
    (x : Except Error (List (Command Float) × List Char)) : Prop :=
  ∃ again, Repeats state.2 again ∧
    x = (readFrom data.toList.length again rest).map fun more => (state.1 ++ more, [])

section

variable {commands : List (Command Float)} {again : Option Char} {d : Char} {s : List Char}
  {y : Except Error (Turn Progress (List (Command Float)) × List Char)}

/-- The first byte of a character tells whether it is a letter, and which one. -/
theorem yields_turn_at (h : Stands data c rest) (hs : skipSeparators rest = d :: s)
    (hk : ∀ c', Stands data c' (d :: s) →
      Yields data ((if isLetter d then explicit data commands d else implicit data commands again) c') y) :
    Yields data (turn data (commands, again) c) y := by
  refine (yields_skipGap h).next fun c₁ h₁ => ?_
  rw [hs] at h₁
  refine (yields_peek h₁).next fun c₂ h₂ => ?_
  dsimp only [List.head?_cons, Option.map_some]
  rw [apply_lead isAsciiKind_isLetter]
  have hnext := hk c₂ h₂
  by_cases hd : isLetter d = true
  · rwa [lead_of_ascii (isAsciiKind_isLetter d hd)]
  · rwa [if_neg hd] at hnext ⊢

theorem yields_turn_of_letter (h : Stands data c rest) (hs : skipSeparators rest = d :: s)
    (hd : isLetter d = true)
    (hk : ∀ c', Stands data c' (d :: s) → Yields data (explicit data commands d c') y) :
    Yields data (turn data (commands, again) c) y :=
  yields_turn_at h hs fun c' h' => by
    rw [if_pos hd]
    exact hk c' h'

theorem yields_turn_of_other (h : Stands data c rest) (hs : skipSeparators rest = d :: s)
    (hd : ¬ isLetter d = true)
    (hk : ∀ c', Stands data c' (d :: s) → Yields data (implicit data commands again c') y) :
    Yields data (turn data (commands, again) c) y :=
  yields_turn_at h hs fun c' h' => by
    rw [if_neg hd]
    exact hk c' h'

/-- A letter that no command has is reported with its place. -/
theorem yields_explicit_unknown (h : Stands data c (d :: s)) (hletter : Letter.ofChar? d = none) :
    Yields data (explicit data commands d c)
      (.error (.unknownCommand d (data.toList.length - (d :: s).length))) := by
  have hplace : c.pos = data.toList.length - (d :: s).length := by
    have := h.pos_add
    omega
  refine (yields_place h).next fun _ h => ?_
  rw [arity?, hletter, ← hplace]
  exact .error h.toIsSound

theorem yields_explicit_close (h : Stands data c (d :: s)) (hd : isLetter d = true)
    (hletter : Letter.ofChar? d = some .close) :
    Yields data (explicit data commands d c) (.ok (.again (commands ++ [.close], none), s)) := by
  have hclose : (d == 'Z' || d == 'z') = true := by simpa using ofChar?_eq_close_iff.1 hletter
  refine (yields_place h).next fun _ h => ?_
  rw [arity?, hletter]
  refine (yields_bump (isAsciiKind_isLetter d hd) h).next fun _ h => ?_
  rw [if_pos hclose]
  exact yields_pure h _

theorem yields_explicit_draw (h : Stands data c (d :: s)) (hd : isLetter d = true)
    (hletter : Letter.ofChar? d = some (.draw frame kind)) :
    Yields data (explicit data commands d c)
      ((readGroup data.toList.length frame kind s).map fun p =>
        (.again (commands ++ [p.1], some (repeated d)), p.2)) := by
  have hclose : ¬ (d == 'Z' || d == 'z') = true := fun hclose => by
    rw [ofChar?_eq_close_iff.2 (by simpa using hclose)] at hletter
    cases hletter
  refine (yields_place h).next fun _ h => ?_
  rw [arity?, hletter]
  refine (yields_bump (isAsciiKind_isLetter d hd) h).next fun _ h => ?_
  rw [if_neg hclose]
  exact (yields_group _ hletter h).map fun command => Turn.again (commands ++ [command], some (repeated d))

theorem yields_implicit_repeat {letter : Char} (h : Stands data c s) (hs : startsNumber s = true)
    (hletter : Letter.ofChar? letter = some (.draw frame kind)) :
    Yields data (implicit data commands (some letter) c)
      ((readGroup data.toList.length frame kind s).map fun p =>
        (.again (commands ++ [p.1], some letter), p.2)) := by
  refine (yields_atNumber h).next fun _ h => ?_
  rw [if_pos hs]
  exact (yields_group _ hletter h).map fun command => Turn.again (commands ++ [command], some letter)

theorem yields_implicit_missing (h : Stands data c s) (hs : startsNumber s = true) :
    Yields data (implicit data commands none c) (.error (.malformed .missingCommand (excerpt s))) := by
  refine (yields_atNumber h).next fun _ h => ?_
  rw [if_pos hs]
  exact yields_report_here h

theorem yields_implicit_unexpected (h : Stands data c s) (hs : ¬ startsNumber s = true) :
    Yields data (implicit data commands again c) (.error (.malformed .unexpectedCharacter (excerpt s))) := by
  refine (yields_atNumber h).next fun _ h => ?_
  rw [if_neg hs]
  exact yields_report_here h

end

/-- After one more command the others are left. -/
theorem isLeft_concat {commands : List (Command Float)} {letter : Option Char} {again : Option (Frame × Kind)}
    (h : Repeats letter again) (command : Command Float) (rest : List Char) :
    IsLeft data (commands ++ [command], letter) rest
      (((command :: ·) <$> readFrom data.toList.length again rest).map fun more => (commands ++ more, [])) := by
  refine ⟨again, h, ?_⟩
  cases readFrom data.toList.length again rest with
  | error e => rfl
  | ok more =>
    show Except.ok (commands ++ command :: more, _) = .ok (commands ++ [command] ++ more, _)
    rw [List.append_assoc, List.singleton_append]

theorem length_lt_of_skipSeparators {d : Char} {s s' : List Char} (hs : skipSeparators rest = d :: s)
    (h : s'.length < (d :: s).length) : s'.length < rest.length := by
  have := length_skipSeparators_le rest
  rw [hs] at this
  omega

/-- One turn reads one command, or it comes to the end or to an error. -/
theorem yields_turn {state : Progress} {x : Except Error (List (Command Float) × List Char)}
    (hleft : IsLeft data state rest x) (h : Stands data c rest) :
    ∃ y, Yields data (turn data state c) y ∧ GoesOn (IsLeft data) rest x y := by
  obtain ⟨commands, letter⟩ := state
  obtain ⟨again, hagain, rfl⟩ := hleft
  fun_cases readFrom data.toList.length again rest with
  | case1 again hs =>
    refine ⟨.ok (.done commands, []), (yields_skipGap h).next fun _ h => ?_, ?_⟩
    · rw [hs] at h
      exact (yields_peek h).next fun _ h => yields_pure h _
    · show Except.ok (commands ++ [], []) = _
      rw [List.append_nil]
  | case2 again d s hs hd hletter =>
    exact ⟨_, yields_turn_of_letter h hs hd fun _ h => yields_explicit_unknown h hletter, rfl⟩
  | case3 again d s hs hd hletter =>
    have hnone : Repeats none none := rfl
    exact ⟨_, yields_turn_of_letter h hs hd fun _ h => yields_explicit_close h hd hletter,
      length_lt_of_skipSeparators hs (Nat.lt_succ_self _), isLeft_concat hnone .close s⟩
  | case4 again d s hs hd frame kind hletter e hgroup =>
    refine ⟨_, yields_turn_of_letter h hs hd fun _ h => yields_explicit_draw h hd hletter, ?_⟩
    rw [hgroup]
    rfl
  | case5 again d s hs hd frame kind hletter command s' hgroup =>
    obtain ⟨-, -, -, hrepeated⟩ := letter_facts hletter
    have hnext : Repeats (some (repeated d)) (some (frame, kind.next)) := congrArg some hrepeated
    have hshorter : s'.length < (d :: s).length := Nat.lt_succ_of_lt (length_lt_of_readGroup hgroup)
    refine ⟨_, yields_turn_of_letter h hs hd fun _ h => yields_explicit_draw h hd hletter, ?_⟩
    rw [hgroup]
    exact ⟨length_lt_of_skipSeparators hs hshorter, isLeft_concat hnext command s'⟩
  | case6 d s hs hd hstarts =>
    obtain rfl : letter = none := Option.map_eq_none_iff.1 hagain
    exact ⟨_, yields_turn_of_other h hs hd fun _ h => yields_implicit_missing h hstarts, rfl⟩
  | case7 d s hs hd hstarts frame kind e hgroup =>
    obtain ⟨letter, rfl, hletter⟩ := Option.map_eq_some_iff.1 hagain
    refine ⟨_, yields_turn_of_other h hs hd fun _ h => yields_implicit_repeat h hstarts hletter, ?_⟩
    rw [hgroup]
    rfl
  | case8 d s hs hd hstarts frame kind command s' hgroup =>
    obtain ⟨letter, rfl, hletter⟩ := Option.map_eq_some_iff.1 hagain
    refine ⟨_, yields_turn_of_other h hs hd fun _ h => yields_implicit_repeat h hstarts hletter, ?_⟩
    rw [hgroup]
    exact ⟨length_lt_of_skipSeparators hs (length_lt_of_readGroup hgroup), isLeft_concat hagain command s'⟩
  | case9 again d s hs hd hstarts =>
    exact ⟨_, yields_turn_of_other h hs hd fun _ h => yields_implicit_unexpected h hstarts, rfl⟩

/-- The whole reading, from the start of the text. -/
theorem yields_read (data : String) :
    Yields data (read data {}) ((parse data).map fun commands => (commands, [])) :=
  yields_loop (P := IsLeft data) yields_turn ⟨none, rfl, rfl⟩ (stands_start data)

/-- A reading of any text ends as `parse` says: with commands, or with an error that it reports. So no text is cut
out between the bytes of a character or out of range, none that is taken for a number fails to be one, no slot is
looked for that there is not, and no loop goes on without moving the cursor. And wherever the cursor was, it was
within the text and at a character or the end. -/
theorem read_is_safe (data : String) :
    ∃ c : Cursor,
      read data {} = (match parse data with
        | .ok commands => .ok commands c
        | .error e => .error (.reported e) c) ∧
      (∀ pos ∈ c.visited, pos ≤ data.utf8ByteSize ∧ String.Pos.Raw.IsValid data ⟨pos⟩) ∧
      ∀ text ∈ c.numerals, ∃ n, Spells text.toList n ∧ floatOf? text = some n.toFloat := by
  have hnumerals {c : Cursor} (h : IsSound data c) :
      ∀ text ∈ c.numerals, ∃ n, Spells text.toList n ∧ floatOf? text = some n.toFloat := fun text htext =>
    (h.numerals text htext).imp fun _ hn => ⟨hn, floatOf?_of_spells hn⟩
  have hread := yields_read data
  generalize read data {} = r at hread
  cases hparse : parse data with
  | error e =>
    rw [hparse] at hread
    cases hread with
    | error hsound => exact ⟨_, rfl, hsound.visited, hnumerals hsound⟩
  | ok commands =>
    rw [hparse] at hread
    cases hread with
    | ok hstands => exact ⟨_, rfl, hstands.visited, hnumerals hstands.toIsSound⟩

end Cursor

end VectorIcon.Path
