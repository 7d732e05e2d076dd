import VectorIcon.Proofs.Path.Parsing

/-!
# What is read stays read

A reading of the first part of a text does not look far into the rest. `IsLocal` says that another rest
may stand in its place as long as numerals still stop where they did (`StopAlike`): a rest may be cut short
(`stopAlike_of_begins`), and a text may follow it that does not start like a part of a numeral
(`stopAlike_append`).

Arguments, groups and whole sequences of commands are read locally (`isLocal_commandsAt`). A run of the
reader is such a sequence, after which it comes to the end of the text or stops at a fault
(`exists_commandsAt`).
-/

namespace VectorIcon.Path

open Text Number

/-! ## Numerals and what follows them -/

/-- A character that numerals are written with. -/
def isNumeralChar (c : Char) : Bool :=
  isDigit c || c == '.' || c == 'e' || c == 'E' || c == '+' || c == '-'

theorem isNumeralChar_of_isDigit {c : Char} (h : isDigit c = true) : isNumeralChar c = true := by
  simp [isNumeralChar, h]

theorem isNumeralChar_sign {s : List Char} {negative : Bool} (h : IsSign s negative) :
    ∀ c ∈ s, isNumeralChar c = true := by
  cases h <;> simp [isNumeralChar]

theorem isNumeralChar_decimal {d w f : List Char} (h : IsDecimal d w f) :
    ∀ c ∈ d, isNumeralChar c = true := by
  intro c hc
  cases h with
  | whole _ hw => exact isNumeralChar_of_isDigit (hw c hc)
  | point _ hw hf =>
    rcases List.mem_append.1 hc with hc | hc
    · exact isNumeralChar_of_isDigit (hw c hc)
    · rcases List.mem_cons.1 hc with rfl | hc
      · decide
      · exact isNumeralChar_of_isDigit (hf c hc)
  | fraction _ hf =>
    rcases List.mem_cons.1 hc with rfl | hc
    · decide
    · exact isNumeralChar_of_isDigit (hf c hc)

theorem isNumeralChar_power {p : List Char} {e : Int} (h : IsPower p e) :
    ∀ c ∈ p, isNumeralChar c = true := by
  intro c hc
  cases h with
  | none => cases hc
  | mark hm hs _ hd =>
    rcases List.mem_cons.1 hc with rfl | hc
    · rcases hm with rfl | rfl <;> decide
    · rcases List.mem_append.1 hc with hc | hc
      · exact isNumeralChar_sign hs c hc
      · exact isNumeralChar_of_isDigit (hd c hc)

theorem isNumeralChar_of_spells {w : List Char} {n : Numeral} (h : Spells w n) :
    ∀ c ∈ w, isNumeralChar c = true := by
  obtain ⟨hs, hd, hp⟩ := h
  intro c hc
  rcases List.mem_append.1 hc with hc | hc
  · exact isNumeralChar_sign hs c hc
  · rcases List.mem_append.1 hc with hc | hc
    · exact isNumeralChar_decimal hd c hc
    · exact isNumeralChar_power hp c hc

/-- Where a numeral stops at `rest`, or at a text that ends with it, it stops at `rest'` as well. -/
def StopAlike (rest rest' : List Char) : Prop :=
  ∀ w t n, Munches (w ++ (t ++ rest)) n (t ++ rest) → Munches (w ++ (t ++ rest')) n (t ++ rest')

theorem StopAlike.prepend {rest rest' : List Char} (h : StopAlike rest rest') (s : List Char) :
    StopAlike (s ++ rest) (s ++ rest') := by
  intro w t n hn
  rw [← List.append_assoc t] at hn ⊢
  exact h w (t ++ s) n hn

/-- The rest may be cut short. -/
theorem stopAlike_of_begins {rest rest' : List Char} (h : rest' <+: rest) : StopAlike rest rest' := by
  rintro w t n ⟨w₀, hw₀, hspells, hlongest⟩
  obtain rfl := List.append_cancel_right hw₀
  refine ⟨w, rfl, hspells, fun w' n' hbegins => hlongest w' n' (hbegins.trans ?_)⟩
  obtain ⟨u, rfl⟩ := h
  exact ⟨u, by simp⟩

/-- A text may follow the rest that does not start like a part of a numeral. -/
theorem stopAlike_append (rest : List Char) {u : List Char} (h : ∀ c ∈ u.head?, isNumeralChar c = false) :
    StopAlike rest (rest ++ u) := by
  rintro w t n ⟨w₀, hw₀, hspells, hlongest⟩
  obtain rfl := List.append_cancel_right hw₀
  refine ⟨w, rfl, hspells, fun w' n' hbegins hspells' => ?_⟩
  have hassoc : w ++ (t ++ (rest ++ u)) = w ++ (t ++ rest) ++ u := by simp
  rw [hassoc] at hbegins
  rcases List.prefix_or_prefix_of_prefix hbegins (List.prefix_append ..) with hshort | ⟨v, rfl⟩
  · exact hlongest w' n' hshort hspells'
  -- a longer numeral would go on with the first character of the text that follows
  · have hv : v <+: u := (List.prefix_append_right_inj _).1 hbegins
    cases v with
    | nil =>
      rw [List.append_nil] at hspells' ⊢
      exact hlongest _ n' (List.prefix_refl _) hspells'
    | cons c v =>
      obtain ⟨u', rfl⟩ := hv
      have hc := isNumeralChar_of_spells hspells' c (by simp)
      rw [h c rfl] at hc
      cases hc

/-! ## ASCII texts -/

/-- All characters are ASCII, so that each is one byte. -/
def IsAscii (s : List Char) : Prop :=
  ∀ c ∈ s, c.val ≤ 127

theorem IsAscii.append {s t : List Char} (hs : IsAscii s) (ht : IsAscii t) : IsAscii (s ++ t) := by
  intro c hc
  rcases List.mem_append.1 hc with hc | hc
  · exact hs c hc
  · exact ht c hc

theorem val_le_of_isNumeralChar {c : Char} (h : isNumeralChar c = true) : c.val ≤ 127 := by
  simp only [isNumeralChar, Bool.or_eq_true, beq_iff_eq] at h
  rcases h with ((((h | rfl) | rfl) | rfl) | rfl) | rfl
  · simp only [isDigit, Bool.and_eq_true, decide_eq_true_eq] at h
    exact UInt32.le_trans h.2 (by decide)
  all_goals decide

theorem val_le_of_isLetter {c : Char} (h : isLetter c = true) : c.val ≤ 127 := by
  simp only [isLetter, Bool.or_eq_true, Bool.and_eq_true, decide_eq_true_eq] at h
  rcases h with h | h
  · exact UInt32.le_trans h.2 (by decide)
  · exact UInt32.le_trans h.2 (by decide)

theorem isAscii_gap {gap : List Char} (h : IsGap gap) : IsAscii gap := by
  have hall : ∀ c ∈ [' ', '\t', '\n', '\x0c', '\r', ','], c.val ≤ 127 := by simp
  exact fun c hc => hall c (h c hc)

theorem IsAscii.segment {gap w : List Char} {c : Char} (hgap : IsGap gap) (hc : c.val ≤ 127)
    (hw : IsAscii w) : IsAscii (gap ++ c :: w) := by
  refine (isAscii_gap hgap).append fun d hd => ?_
  rcases List.mem_cons.1 hd with rfl | hd
  · exact hc
  · exact hw d hd

theorem utf8ByteSize_of_isAscii {s : List Char} (h : IsAscii s) :
    (String.ofList s).utf8ByteSize = s.length := by
  induction s with
  | nil => rfl
  | cons c s ih =>
    have hc : c.utf8Size = 1 := Char.utf8Size_eq_one_iff.2 (h c List.mem_cons_self)
    rw [String.ofList_cons, String.utf8ByteSize_append, String.utf8ByteSize_singleton, hc,
      ih fun d hd => h d (List.mem_cons_of_mem c hd), List.length_cons, Nat.add_comm]

/-- An ASCII character is one byte, after the bytes of the text before it. -/
theorem toByteArray_between (a b : String) {c : Char} (h : c.val ≤ 127) :
    (a ++ String.singleton c ++ b).toByteArray[a.utf8ByteSize]? = some c.val.toUInt8 := by
  have hbyte : (String.singleton c).toByteArray = [c.val.toUInt8].toByteArray := by
    rw [String.toByteArray_singleton, List.utf8Encode_singleton,
      String.utf8EncodeChar_eq_singleton (Char.utf8Size_eq_one_iff.2 h)]
  have hsize : a.toByteArray.size ≤ a.utf8ByteSize := Nat.le_of_eq String.size_toByteArray
  have hleft : a.utf8ByteSize < (a.toByteArray ++ [c.val.toUInt8].toByteArray).size := by simp
  have hall : a.utf8ByteSize <
      (a.toByteArray ++ [c.val.toUInt8].toByteArray ++ b.toByteArray).size := by
    rw [ByteArray.size_append]
    omega
  rw [String.toByteArray_append, String.toByteArray_append, hbyte]
  refine (getElem?_pos _ a.utf8ByteSize hall).trans (congrArg some ?_)
  rw [ByteArray.getElem_append_left hleft, ByteArray.getElem_append_right hsize]
  simp [List.getElem_toByteArray]

/-! ## Local readings -/

/-- Whatever is read before the rest is ASCII, and it is read in the same way before any other rest that
stops numerals where the rest does. -/
def IsLocal (read : List Char → List Char → Prop) : Prop :=
  ∀ s rest, read s rest →
    ∃ w, s = w ++ rest ∧ IsAscii w ∧ ∀ rest', StopAlike rest rest' → read (w ++ rest') rest'

theorem IsLocal.comp {read read' : List Char → List Char → Prop} (h : IsLocal read)
    (h' : IsLocal read') : IsLocal fun s rest => ∃ t, read s t ∧ read' t rest := by
  rintro s rest ⟨t, hs, ht⟩
  obtain ⟨w', rfl, hascii', hread'⟩ := h' t rest ht
  obtain ⟨w, rfl, hascii, hread⟩ := h s _ hs
  refine ⟨w ++ w', by simp, hascii.append hascii', fun rest' halike => ?_⟩
  rw [List.append_assoc]
  exact ⟨_, hread _ (halike.prepend w'), hread' _ halike⟩

theorem isLocal_argumentAt (slot : Slot) (a : Argument Float) : IsLocal (ArgumentAt slot · a ·) := by
  intro s rest h
  cases h with
  | number hn hfinite =>
    obtain ⟨w, rfl, hspells, hlongest⟩ := hn
    have hascii : IsAscii w := fun c hc => val_le_of_isNumeralChar (isNumeralChar_of_spells hspells c hc)
    refine ⟨w, rfl, hascii, fun rest' halike => .number (halike w [] _ ?_) hfinite⟩
    exact ⟨w, rfl, hspells, hlongest⟩
  | unset => exact ⟨['0'], rfl, by simp [IsAscii], fun _ _ => .unset⟩
  | set => exact ⟨['1'], rfl, by simp [IsAscii], fun _ _ => .set⟩

theorem isLocal_argumentsAt (slots : List Slot) (as : List (Argument Float)) :
    IsLocal (ArgumentsAt slots · as ·) := by
  induction slots generalizing as with
  | nil =>
    intro s rest h
    cases h
    exact ⟨[], rfl, by simp [IsAscii], fun _ _ => .nil⟩
  | cons slot slots ih =>
    intro s rest h
    cases h with
    | @cons _ _ gap s a t as _ hgap ha hs =>
      obtain ⟨w, rfl, hascii, hread⟩ := (isLocal_argumentAt slot a).comp (ih as) s rest ⟨t, ha, hs⟩
      refine ⟨gap ++ w, by simp, (isAscii_gap hgap).append hascii, fun rest' halike => ?_⟩
      obtain ⟨t', ha', hs'⟩ := hread rest' halike
      rw [List.append_assoc]
      exact .cons hgap ha' hs'

theorem isLocal_groupAt (frame : Frame) (kind : Kind) (command : Command Float) :
    IsLocal (GroupAt frame kind · command ·) := by
  rintro s rest ⟨hletter, h⟩
  obtain ⟨w, rfl, hascii, hread⟩ := isLocal_argumentsAt kind.slots command.arguments s rest h
  exact ⟨w, rfl, hascii, fun rest' halike => ⟨hletter, hread rest' halike⟩⟩

/-! ## Sequences of commands -/

/-- What a group without a letter repeats after a command. -/
def Command.repeated? {α : Type} (c : Command α) : Option (Frame × Kind) :=
  match c.letter with
  | .draw frame kind => some (frame, kind.next)
  | .close => none

/-- What a group without a letter repeats after some commands, and after none of them. -/
def repeatedAfter {α : Type} (again : Option (Frame × Kind)) (cs : List (Command α)) :
    Option (Frame × Kind) :=
  cs.foldl (fun _ c => c.repeated?) again

/-- The text begins with some commands, of which those without a letter repeat what is before them. -/
inductive CommandsAt : Option (Frame × Kind) → List Char → List (Command Float) → List Char → Prop
  | done {again rest} : CommandsAt again rest [] rest
  | close {again gap c s cs rest} : IsGap gap → c ∈ ['Z', 'z'] → CommandsAt none s cs rest →
      CommandsAt again (gap ++ c :: s) (.close :: cs) rest
  | letter {again gap c frame kind s command s' cs rest} : IsGap gap →
      (c, frame, kind) ∈ drawingLetters → GroupAt frame kind s command s' →
      CommandsAt (some (frame, kind.next)) s' cs rest →
      CommandsAt again (gap ++ c :: s) (command :: cs) rest
  | more {frame kind s command s' cs rest} : GroupAt frame kind s command s' →
      CommandsAt (some (frame, kind.next)) s' cs rest →
      CommandsAt (some (frame, kind)) s (command :: cs) rest

theorem isLetter_close : ∀ c ∈ ['Z', 'z'], isLetter c = true := by
  simp [isLetter]

theorem isLocal_commandsAt (again : Option (Frame × Kind)) (cs : List (Command Float)) :
    IsLocal (CommandsAt again · cs ·) := by
  induction cs generalizing again with
  | nil =>
    intro s rest h
    cases h
    exact ⟨[], rfl, by simp [IsAscii], fun _ _ => .done⟩
  | cons command cs ih =>
    intro s rest h
    cases h with
    | close hgap hc hs =>
      obtain ⟨w, rfl, hascii, hread⟩ := ih none _ rest hs
      refine ⟨_, by simp, hascii.segment hgap (val_le_of_isLetter (isLetter_close _ hc)),
        fun rest' halike => ?_⟩
      rw [List.append_assoc]
      exact .close hgap hc (hread rest' halike)
    | letter hgap hc hg hs =>
      obtain ⟨w, rfl, hascii, hread⟩ :=
        (isLocal_groupAt _ _ command).comp (ih _) _ rest ⟨_, hg, hs⟩
      refine ⟨_, by simp, hascii.segment hgap (val_le_of_isLetter (isLetter_drawingLetters _ hc)),
        fun rest' halike => ?_⟩
      obtain ⟨s', hg', hs'⟩ := hread rest' halike
      rw [List.append_assoc]
      exact .letter hgap hc hg' hs'
    | more hg hs =>
      obtain ⟨w, rfl, hascii, hread⟩ :=
        (isLocal_groupAt _ _ command).comp (ih _) _ rest ⟨_, hg, hs⟩
      refine ⟨w, rfl, hascii, fun rest' halike => ?_⟩
      obtain ⟨s', hg', hs'⟩ := hread rest' halike
      exact .more hg' hs'

end VectorIcon.Path
