import VectorIcon.Proofs.Kotlin.Command
import VectorIcon.Proofs.Path.FirstFault

/-!
# The texts of commands

A command is made of a letter of path data and values. Its two texts, the call of the builder and the entry
of a clip, list these values in their order, after a name that tells the letter and its frame
(`command_text`).
-/

namespace VectorIcon.Kotlin

open VectorIcon.Path

/-- The name at the start of a text, which ends at the first parenthesis. -/
def nameOf (text : String) : String :=
  String.ofList (text.toList.takeWhile (· != '('))

/-- A value of path data as code, by its letter and its place: the fourth and the fifth value of an arc are
truth values. -/
def valueText (c : Char) (place : Nat) (v : Float) : String :=
  if c ∈ ['A', 'a'] ∧ place ∈ [3, 4] then if v != 0 then "true" else "false" else floatLiteral v

/-- The values of path data as code, in parentheses. -/
def valueList (c : Char) (values : List Float) : String :=
  "(" ++ ", ".intercalate (values.mapIdx (valueText c)) ++ ")"

/-- A letter whose points are relative: `z` is in lower case, but has no points. -/
def IsRelativeLetter (c : Char) : Prop :=
  c.isLower = true ∧ c ≠ 'z'

instance (c : Char) : Decidable (IsRelativeLetter c) :=
  inferInstanceAs (Decidable (_ ∧ _))

section

variable {c : Char} {letter : Letter} {values : List Float}

/-! ## Values -/

/-- The places of flags, by the character of a letter. -/
theorem slots_eq (h : Letter.ofChar? c = some letter) :
    letter.slots = (List.range letter.slots.length).map fun place =>
      if c ∈ ['A', 'a'] ∧ place ∈ [3, 4] then .flag else .number := by
  have hdrawing : ∀ entry ∈ drawingLetters, entry.2.2.slots =
      (List.range entry.2.2.slots.length).map fun place =>
        if entry.1 ∈ ['A', 'a'] ∧ place ∈ [3, 4] then .flag else .number := by decide
  cases letter with
  | draw frame kind => exact hdrawing _ (mem_drawingLetters_of_ofChar? h)
  | close => rfl

theorem length_slots_eq_zero_iff : letter.slots.length = 0 ↔ letter = .close := by
  cases letter with
  | draw frame kind => cases kind <;> exact iff_of_false (Nat.succ_ne_zero _) nofun
  | close => exact iff_of_true rfl rfl

theorem map_slot_zipWith {slots : List Slot} (h : slots.length = values.length) :
    (List.zipWith Command.argument slots values).map Argument.slot = slots := by
  induction slots generalizing values with
  | nil => rfl
  | cons slot slots ih =>
    cases values with
    | nil => cases h
    | cons v values =>
      rw [List.zipWith_cons_cons, List.map_cons, ih (Nat.succ.inj h)]
      cases slot <;> rfl

/-- As many values as a letter asks for make a command of that letter. -/
theorem exists_ofValues? (hletter : Letter.ofChar? c = some letter)
    (hlength : letter.slots.length = values.length) :
    ∃ command, Command.ofValues? c values = some command ∧ command.letter = letter ∧
      command.arguments = List.zipWith Command.argument letter.slots values := by
  have hslots := map_slot_zipWith hlength
  obtain ⟨command, hcommand⟩ : ∃ command, Command.ofArguments? letter
      (List.zipWith Command.argument letter.slots values) = some command := by
    cases letter with
    | draw frame kind => exact exists_of_map_slot frame hslots
    | close => exact ⟨.close, rfl⟩
  refine ⟨command, ?_, ofArguments?_eq_some_iff.1 hcommand⟩
  simp [Command.ofValues?, hletter, hlength, hcommand]

theorem argumentText_argument (slot : Slot) (v : Float) :
    argumentText (Command.argument slot v) =
      if slot = .flag then if v != 0 then "true" else "false" else floatLiteral v := by
  cases slot with
  | number => rfl
  | flag =>
    rw [Command.argument, if_pos rfl]
    cases v != 0 <;> rfl

/-- Arguments are written as the values that they are made of. -/
theorem map_argumentText (hletter : Letter.ofChar? c = some letter)
    (hlength : letter.slots.length = values.length) :
    (List.zipWith Command.argument letter.slots values).map argumentText =
      values.mapIdx (valueText c) := by
  refine List.ext_getElem (by simp [hlength]) fun place hplace hplace' => ?_
  have hslot : place < letter.slots.length := by
    rw [List.length_mapIdx] at hplace'
    omega
  have hflag : letter.slots[place] = .flag ↔ c ∈ ['A', 'a'] ∧ place ∈ [3, 4] := by
    rw [List.getElem_of_eq (slots_eq hletter) hslot, List.getElem_map, List.getElem_range]
    split
    · next h => exact iff_of_true rfl h
    · next h => exact iff_of_false (fun hnumber => nomatch hnumber) h
  rw [List.getElem_map, List.getElem_zipWith, argumentText_argument, List.getElem_mapIdx, valueText]
  simp only [hflag]

/-! ## Names -/

theorem nameOf_append_open {name : String} (h : '(' ∉ name.toList) (s : String) :
    nameOf (name ++ ("(" ++ s)) = name := by
  have hpass : ∀ x ∈ name.toList, (x != '(') = true := by
    intro x hx
    rw [bne_iff_ne]
    rintro rfl
    exact h hx
  have hopen : ("(" ++ s).toList = '(' :: s.toList := String.toList_append
  rw [nameOf, String.toList_append, hopen, List.takeWhile_append_of_pos hpass,
    List.takeWhile_cons_of_neg (by decide), List.append_nil, String.ofList_toList]

theorem open_not_mem_names (letter : Letter) :
    '(' ∉ (callName letter).toList ∧ '(' ∉ (nodeName letter).toList := by
  have hnames : ∀ letter ∈ letters,
      '(' ∉ (callName letter).toList ∧ '(' ∉ (nodeName letter).toList := by decide +kernel
  exact hnames letter (mem_letters letter)

theorem nameOf_builderCall (command : Command Float) :
    nameOf (builderCall command) = callName command.letter := by
  rw [builderCall, argumentList, String.append_assoc]
  exact nameOf_append_open (open_not_mem_names command.letter).1 _

theorem pathNode_eq (command : Command Float) : pathNode command =
    nodeName command.letter ++ if command.letter = .close then "" else argumentList command := by
  unfold pathNode
  split
  · next h => rw [if_pos h, h, String.append_empty]
  · next h => rw [if_neg h]

theorem nameOf_pathNode (command : Command Float) :
    nameOf (pathNode command) = nodeName command.letter := by
  rw [pathNode_eq]
  split
  · next h =>
    rw [h]
    decide
  · rw [argumentList, String.append_assoc]
    exact nameOf_append_open (open_not_mem_names command.letter).2 _

/-- The letter has relative points. -/
def isRelativeDraw : Letter → Bool
  | .draw .relative _ => true
  | _ => false

theorem isRelativeDraw_iff (h : Letter.ofChar? c = some letter) :
    isRelativeDraw letter = true ↔ IsRelativeLetter c := by
  have hdrawing : ∀ entry ∈ drawingLetters,
      isRelativeDraw (.draw entry.2.1 entry.2.2) = true ↔ IsRelativeLetter entry.1 := by decide +kernel
  cases letter with
  | draw frame kind => exact hdrawing _ (mem_drawingLetters_of_ofChar? h)
  | close =>
    have hc : c = 'Z' ∨ c = 'z' := by simpa using ofChar?_eq_close_iff.1 h
    refine iff_of_false Bool.false_ne_true fun hrelative => ?_
    rcases hc with rfl | rfl
    · exact absurd hrelative.1 (by decide)
    · exact hrelative.2 rfl

theorem relative_names (letter : Letter) :
    ("Relative".toList <:+ (callName letter).toList ↔ isRelativeDraw letter = true) ∧
      ("PathNode.Relative".toList <+: (nodeName letter).toList ↔ isRelativeDraw letter = true) := by
  have hnames : ∀ letter ∈ letters,
      ("Relative".toList <:+ (callName letter).toList ↔ isRelativeDraw letter = true) ∧
        ("PathNode.Relative".toList <+: (nodeName letter).toList ↔ isRelativeDraw letter = true) := by
    decide +kernel
  exact hnames letter (mem_letters letter)

end

/-! ## Texts -/

/-- The values that a letter asks for make a command of that letter, and both of its texts list them in their
order. The command is relative, and both texts say so, exactly for the letters in lower case but `z`. Commands
of different letters or frames have different names in both texts. -/
theorem command_text :
    (∀ (c : Char) (values : List Float), arity? c = some values.length →
      ∃ command : Command Float, Command.ofValues? c values = some command ∧
        Letter.ofChar? c = some command.letter ∧
        builderCall command = nameOf (builderCall command) ++ valueList c values ∧
        pathNode command =
          nameOf (pathNode command) ++ (if values.isEmpty then "" else valueList c values) ∧
        (command.isRelative = true ↔ IsRelativeLetter c) ∧
        ("Relative".toList <:+ (nameOf (builderCall command)).toList ↔ IsRelativeLetter c) ∧
        ("PathNode.Relative".toList <+: (nameOf (pathNode command)).toList ↔ IsRelativeLetter c)) ∧
    ∀ a b : Command Float, a.letter ≠ b.letter →
      nameOf (builderCall a) ≠ nameOf (builderCall b) ∧ nameOf (pathNode a) ≠ nameOf (pathNode b) := by
  refine ⟨fun c values harity => ?_, fun a b hletters => ?_⟩
  · obtain ⟨letter, hletter, hlength⟩ := Option.map_eq_some_iff.1 harity
    obtain ⟨command, hcommand, rfl, harguments⟩ := exists_ofValues? hletter hlength
    have hlist : argumentList command = valueList c values := by
      rw [argumentList, harguments, map_argumentText hletter hlength, valueList]
    have hclose : values.isEmpty = true ↔ command.letter = .close := by
      rw [List.isEmpty_iff_length_eq_zero, ← hlength, length_slots_eq_zero_iff]
    have hrelative := isRelativeDraw_iff hletter
    obtain ⟨hcall, hnode⟩ := relative_names command.letter
    refine ⟨command, hcommand, hletter, ?_, ?_, hrelative, ?_, ?_⟩
    · rw [nameOf_builderCall, builderCall, hlist]
    · rw [nameOf_pathNode, pathNode_eq, hlist]
      simp only [hclose]
    · rw [nameOf_builderCall, hcall, hrelative]
    · rw [nameOf_pathNode, hnode, hrelative]
  · rw [nameOf_builderCall, nameOf_builderCall, nameOf_pathNode, nameOf_pathNode]
    exact ⟨fun h => hletters (callName_inj h), fun h => hletters (nodeName_inj h)⟩

/-- A relative arc with a flag that is set and one that is not. -/
theorem command_text_arc :
    let values : List Float := [5, 4, 0, 1, 0, 10, -2.5]
    arity? 'a' = some values.length ∧
      ∃ command : Command Float, Command.ofValues? 'a' values = some command ∧
        builderCall command =
          nameOf (builderCall command) ++ "(5f, 4f, 0f, true, false, 10f, -2.5f)" ∧
        "Relative".toList <:+ (nameOf (builderCall command)).toList ∧
        command.letter ≠ .close ∧ nameOf (builderCall command) ≠ nameOf (builderCall .close) := by
  intro values
  have hrelative : IsRelativeLetter 'a' := by decide
  have hlist : valueList 'a' values = "(5f, 4f, 0f, true, false, 10f, -2.5f)" := by decide +kernel
  obtain ⟨command, hcommand, -, hcall, -, hframe, hname, -⟩ := command_text.1 'a' values rfl
  have hletter : command.letter ≠ .close := by
    intro h
    have htrue := hframe.2 hrelative
    rw [Command.isRelative, h] at htrue
    cases htrue
  rw [hlist] at hcall
  exact ⟨rfl, command, hcommand, hcall, hname.2 hrelative, hletter,
    (command_text.2 command .close hletter).1⟩

end VectorIcon.Kotlin
