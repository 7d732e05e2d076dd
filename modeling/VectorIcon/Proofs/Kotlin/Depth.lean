import VectorIcon.Kotlin.Builder
import VectorIcon.Proofs.Kotlin.Nesting

/-!
# Lines at a depth

The writers of code do not count brackets: lines are made without blanks, and the call or the block around
them moves them to the right. So the depth of a line is stated relative to a base, the depth at which its
text is written (`LineAt`). Where lines are moved by one level, one is taken off the base
(`LaidOut.nested`).

The lines of an argument or of a part of an icon sit: they may be written at the depth of whatever is open
around them, and leave it open (`Sits`). Calls and blocks of lines that sit, sit as well
(`argumentSits_call`, `sits_block`).
-/

namespace VectorIcon.Kotlin

/-! ## Texts of lines -/

/-- The text starts neither with a blank nor by closing a bracket. -/
def Starts (s : String) : Prop :=
  ∃ c ∈ s.toList.head?, c ≠ ' ' ∧ isCloser c = false

/-- The text does not end with a blank. -/
def Stops (s : String) : Prop :=
  ∃ c ∈ s.toList.getLast?, Text.isBlank c = false

theorem Starts.append {a : String} (h : Starts a) (b : String) : Starts (a ++ b) := by
  obtain ⟨c, hc, hink⟩ := h
  refine ⟨c, ?_, hink⟩
  rw [String.toList_append, List.head?_append, Option.mem_def.1 hc]
  rfl

/-- Words and numbers start with no blank and no bracket. -/
theorem starts_of_isNumberChar {s : String} {c : Char} (hc : s.toList.head? = some c)
    (h : isNumberChar c = true) : Starts s := by
  have hne {d : Char} (hd : isNumberChar d = false) : c ≠ d := by
    rintro rfl
    rw [h] at hd
    cases hd
  refine ⟨c, hc, hne (by decide), ?_⟩
  simp [isCloser, hne (d := ')') (by decide), hne (d := '\x7d') (by decide)]

theorem Stops.prepend {b : String} (h : Stops b) (a : String) : Stops (a ++ b) := by
  obtain ⟨c, hc, hink⟩ := h
  refine ⟨c, ?_, hink⟩
  rw [String.toList_append, List.getLast?_append, Option.mem_def.1 hc]
  rfl

theorem stops_of_any {s : String} (h : s.toList.getLast?.any (!Text.isBlank ·) = true) : Stops s := by
  obtain ⟨c, hc, hink⟩ := (Option.any_eq_true ..).1 h
  rw [Bool.not_eq_true'] at hink
  exact ⟨c, hc, hink⟩

/-- A text that a line may have after its blanks. -/
structure IsInk (text : List Char) : Prop where
  starts : ∃ c ∈ text.head?, c ≠ ' '
  stops : ∃ c ∈ text.getLast?, Text.isBlank c = false
  line : '\n' ∉ text

/-- A text that may stand after the last of some lines. -/
structure IsEnding (text : List Char) : Prop where
  starts : ∀ c ∈ text.head?, isCloser c = false
  stops : ∀ c ∈ text.getLast?, Text.isBlank c = false
  line : '\n' ∉ text

section

variable {text ending : List Char}

theorem IsInk.append (h : IsInk text) (hending : IsEnding ending) : IsInk (text ++ ending) := by
  obtain ⟨c, hc, hblank⟩ := h.starts
  obtain ⟨d, hd, hink⟩ := h.stops
  refine ⟨⟨c, ?_, hblank⟩, ?_, ?_⟩
  · rw [List.head?_append, Option.mem_def.1 hc]
    rfl
  · rw [List.getLast?_append]
    cases hlast : ending.getLast? with
    | none => exact ⟨d, hd, hink⟩
    | some e => exact ⟨e, rfl, hending.stops e hlast⟩
  · rw [List.mem_append, not_or]
    exact ⟨h.line, hending.line⟩

/-- An ending closes no brackets at the start of its line. -/
theorem takeWhile_isCloser_append (hending : IsEnding ending) (text : List Char) :
    (text ++ ending).takeWhile isCloser = text.takeWhile isCloser := by
  have hnone : ending.takeWhile isCloser = [] := by
    cases ending with
    | nil => rfl
    | cons c ending => exact List.takeWhile_cons_of_neg (by simp [hending.starts c rfl])
  rw [List.takeWhile_append, hnone, List.append_nil]
  split
  · next hlength => exact ((List.takeWhile_prefix isCloser).eq_of_length hlength).symm
  · rfl

end

/-! ## Lines at a depth -/

/-- A line that is written at a depth, its base: the blanks of some further levels, a text, and the
brackets that are open before the line and after it. -/
def LineAt (indentSize base : Nat) (before : List Char) (line : String) (after : List Char) : Prop :=
  ∃ k text, line.toList = List.replicate (indentSize * k) ' ' ++ text ∧ IsInk text ∧
    base + k + (text.takeWhile isCloser).length = before.length ∧
    (Brackets.mk .outside before).after text = some ⟨.outside, after⟩

/-- Lines that are written at a depth, and the brackets that are open before and after them. -/
inductive LaidOut (indentSize base : Nat) : List Char → List String → List Char → Prop
  | nil (closers) : LaidOut indentSize base closers [] closers
  | cons {a b c line lines} : LineAt indentSize base a line b →
    LaidOut indentSize base b lines c → LaidOut indentSize base a (line :: lines) c

section

variable {indentSize base : Nat} {a b c : List Char} {line : String} {lines lines' : List String}

/-- A line without blanks that starts with what is no closing bracket. -/
theorem lineAt_of_starts (hstarts : Starts line) (hstops : Stops line) (hline : '\n' ∉ line.toList)
    (hafter : (Brackets.mk .outside a).after line.toList = some ⟨.outside, b⟩) :
    LineAt indentSize a.length a line b := by
  obtain ⟨c, hc, hblank, hcloser⟩ := hstarts
  refine ⟨0, line.toList, by simp, ⟨⟨c, hc, hblank⟩, hstops, hline⟩, ?_, hafter⟩
  obtain ⟨text, htext⟩ := List.head?_eq_some_iff.1 hc
  rw [htext, List.takeWhile_cons_of_neg (by simp [hcloser])]
  rfl

/-- A line without blanks that starts by closing a bracket. -/
theorem lineAt_of_closes {closer : Char} {rest : List Char} (hline : line.toList = closer :: rest)
    (hcloser : isCloser closer = true) (hrest : rest.takeWhile isCloser = []) (hstops : Stops line)
    (hfeed : '\n' ∉ line.toList)
    (hafter : (Brackets.mk .outside (closer :: a)).after (closer :: rest) = some ⟨.outside, b⟩) :
    LineAt indentSize a.length (closer :: a) line b := by
  have hblank : closer ≠ ' ' := by
    rintro rfl
    cases hcloser
  rw [Stops, hline] at hstops
  rw [hline] at hfeed
  refine ⟨0, closer :: rest, by simp [hline], ⟨⟨closer, rfl, hblank⟩, hstops, hfeed⟩, ?_, hafter⟩
  rw [List.takeWhile_cons_of_pos hcloser, hrest]
  rfl

theorem LineAt.endedWith {ending : String} (h : LineAt indentSize base a line b)
    (hending : IsEnding ending.toList)
    (hafter : (Brackets.mk .outside b).after ending.toList = some ⟨.outside, c⟩) :
    LineAt indentSize base a (line ++ ending) c := by
  obtain ⟨k, text, hline, hink, hdepth, htext⟩ := h
  refine ⟨k, text ++ ending.toList, ?_, hink.append hending, ?_, ?_⟩
  · rw [String.toList_append, hline, List.append_assoc]
  · rw [takeWhile_isCloser_append hending, hdepth]
  · rw [Brackets.after_append, htext]
    exact hafter

namespace LaidOut

theorem singleton (h : LineAt indentSize base a line b) : LaidOut indentSize base a [line] b :=
  cons h (nil b)

theorem append (h : LaidOut indentSize base a lines b) (h' : LaidOut indentSize base b lines' c) :
    LaidOut indentSize base a (lines ++ lines') c := by
  induction h with
  | nil => exact h'
  | cons hline _ ih => exact cons hline (ih h')

/-- Lines that are moved to the right are lines at one level less. -/
theorem nested {style : CallStyle} (hindent : style.indent.toList = List.replicate indentSize ' ')
    (h : LaidOut indentSize (base + 1) a lines b) :
    LaidOut indentSize base a (style.nested lines) b := by
  induction h with
  | nil => exact nil _
  | cons hline _ ih =>
    obtain ⟨k, text, hline, hink, hdepth, hafter⟩ := hline
    refine cons ⟨k + 1, text, ?_, hink, by omega, hafter⟩ ih
    rw [String.toList_append, hindent, hline, ← List.append_assoc, List.replicate_append_replicate,
      Nat.mul_succ, Nat.add_comm]

theorem endedWith {ending : String} (h : LaidOut indentSize base a lines b) (hne : lines ≠ [])
    (hending : IsEnding ending.toList)
    (hafter : (Brackets.mk .outside b).after ending.toList = some ⟨.outside, c⟩) :
    LaidOut indentSize base a (Kotlin.endedWith ending lines) c := by
  induction h with
  | nil => exact absurd rfl hne
  | @cons a b d line lines hline hlines ih =>
    cases lines with
    | nil =>
      cases hlines
      exact singleton (hline.endedWith hending hafter)
    | cons next lines =>
      rw [Kotlin.endedWith]
      · exact cons hline (ih (List.cons_ne_nil _ _) hafter)
      · exact List.cons_ne_nil _ _

end LaidOut

end

/-! ## Calls and blocks -/

/-- The text starts with a letter and has no quotes, brackets or line feeds. -/
def isLabel (s : String) : Bool :=
  s.toList.head?.any isWordChar && s.toList.all isNeutral

/-- A text with which a line may end. -/
structure IsValue (s : String) : Prop where
  flat : IsFlat s
  stops : Stops s

/-- Whatever is open around the lines, they may be written at its depth, and leave it open. -/
def Sits (indentSize : Nat) (lines : List String) : Prop :=
  ∀ closers : List Char, LaidOut indentSize closers.length closers lines closers

/-- The lines of an argument, of which there are some, sit. -/
def ArgumentSits (indentSize : Nat) (lines : List String) : Prop :=
  lines ≠ [] ∧ Sits indentSize lines

section

variable {label text : String}

theorem isFlat_of_isLabel (h : isLabel label = true) : IsFlat label :=
  isFlat_of_all (Bool.and_eq_true_iff.1 h).2

theorem starts_of_isLabel (h : isLabel label = true) : Starts label := by
  obtain ⟨c, hc, hword⟩ := (Option.any_eq_true ..).1 (Bool.and_eq_true_iff.1 h).1
  exact starts_of_isNumberChar hc (by simp [isNumberChar, hword])

theorem isLabel_append (h : isLabel label = true) (htext : text.toList.all isNeutral = true) :
    isLabel (label ++ text) = true := by
  rw [isLabel, Bool.and_eq_true, Option.any_eq_true] at h ⊢
  obtain ⟨⟨c, hc, hword⟩, hall⟩ := h
  refine ⟨⟨c, ?_, hword⟩, ?_⟩
  · rw [String.toList_append, List.head?_append, hc]
    rfl
  · rw [String.toList_append, List.all_append, hall, htext]
    rfl

theorem IsValue.prepend (h : IsValue text) (hlabel : isLabel label = true) :
    IsValue (label ++ text) :=
  ⟨(isFlat_of_isLabel hlabel).append h.flat, h.stops.prepend label⟩

end

section

variable {indentSize : Nat} {lines lines' : List String}

theorem sits_nil : Sits indentSize [] :=
  fun closers => .nil closers

theorem Sits.append (h : Sits indentSize lines) (h' : Sits indentSize lines') :
    Sits indentSize (lines ++ lines') :=
  fun closers => (h closers).append (h' closers)

theorem argumentSits_singleton {line : String} (hstarts : Starts line) (h : IsValue line) :
    ArgumentSits indentSize [line] :=
  ⟨List.cons_ne_nil _ _, fun closers =>
    .singleton (lineAt_of_starts hstarts h.stops h.flat.line (h.flat.after closers))⟩

theorem argumentSits_line {label text : String} (hlabel : isLabel label = true) (h : IsValue text) :
    ArgumentSits indentSize [label ++ text] :=
  argumentSits_singleton ((starts_of_isLabel hlabel).append text) (h.prepend hlabel)

theorem argumentSits_argumentUnless {label text : String} (hlabel : isLabel label = true)
    (h : IsValue text) (isDefault : Bool) :
    ∀ arg ∈ argumentUnless isDefault label text, ArgumentSits indentSize arg := by
  intro arg harg
  cases isDefault with
  | true => cases harg
  | false =>
    rw [List.mem_singleton.1 harg]
    exact argumentSits_line (isLabel_append hlabel (by decide)) h

theorem argumentSits_map {α : Type} {f : α → List String} (h : ∀ x, ArgumentSits indentSize (f x))
    (o : Option α) : ∀ arg ∈ (o.map f).toList, ArgumentSits indentSize arg := by
  intro arg harg
  obtain ⟨x, -, rfl⟩ := Option.map_eq_some_iff.1 (Option.mem_toList.1 harg)
  exact h x

theorem sits_map {α : Type} {f : α → String} (hstarts : ∀ x, Starts (f x)) (h : ∀ x, IsValue (f x))
    (l : List α) : Sits indentSize (l.map f) := by
  induction l with
  | nil => exact sits_nil
  | cons x l ih => exact (argumentSits_singleton (hstarts x) (h x)).2.append ih

variable {style : CallStyle} (hindent : style.indent.toList = List.replicate indentSize ' ')

include hindent

/-- The arguments of a call stand one level deeper than the call, in its parentheses. -/
theorem laidOut_arguments {args : List (List String)} (h : ∀ arg ∈ args, ArgumentSits indentSize arg)
    (closers : List Char) :
    LaidOut indentSize closers.length (')' :: closers) (style.arguments args) (')' :: closers) := by
  have hended {ending : String} {arg : List String} (harg : ArgumentSits indentSize arg)
      (hending : ending = "," ∨ ending = "") :
      LaidOut indentSize closers.length (')' :: closers) (style.nested (endedWith ending arg))
        (')' :: closers) := by
    refine LaidOut.nested hindent ((harg.2 (')' :: closers)).endedWith harg.1 ?_ ?_)
    · rcases hending with rfl | rfl <;> exact ⟨by simp [isCloser], by simp [Text.isBlank], by simp⟩
    · rcases hending with rfl | rfl <;> rfl
  induction args with
  | nil => exact .nil _
  | cons arg args ih =>
    have harg := h arg (List.mem_cons_self ..)
    cases args with
    | nil =>
      rw [CallStyle.arguments]
      refine hended harg ?_
      cases style.trailingComma <;> simp
    | cons next args =>
      rw [CallStyle.arguments]
      · exact (hended harg (.inl rfl)).append (ih fun arg harg => h arg (List.mem_cons_of_mem _ harg))
      · exact List.cons_ne_nil _ _

/-- A call may be written at any depth. -/
theorem argumentSits_call {name : String} (hname : isLabel name = true) {args : List (List String)}
    (h : ∀ arg ∈ args, ArgumentSits indentSize arg) :
    ArgumentSits indentSize (style.call name args) := by
  have hopens : Opens (name ++ "(") := (isFlat_of_isLabel hname).opens ⟨by decide, fun _ => rfl⟩
  refine ⟨List.cons_ne_nil _ _, fun closers => ?_⟩
  have hopen : LineAt indentSize closers.length closers (name ++ "(") (')' :: closers) :=
    lineAt_of_starts ((starts_of_isLabel hname).append "(")
      (Stops.prepend ⟨'(', rfl, by decide⟩ name) hopens.line (hopens.after closers)
  have hclose : LineAt indentSize closers.length (')' :: closers) ")" closers :=
    lineAt_of_closes rfl rfl rfl ⟨')', rfl, by decide⟩ (by decide) rfl
  exact (LaidOut.cons hopen (laidOut_arguments hindent h closers)).append (.singleton hclose)

/-- Lines in braces stand one level deeper than what is before the braces. -/
theorem laidOut_braces {head body : List String} {last : String} {closers : List Char}
    (hhead : LaidOut indentSize closers.length closers head ('\x7d' :: closers))
    (hbody : Sits indentSize body)
    (hlast : LineAt indentSize closers.length ('\x7d' :: closers) last closers) :
    LaidOut indentSize closers.length closers (head ++ style.nested body ++ [last]) closers :=
  (hhead.append (LaidOut.nested hindent (hbody ('\x7d' :: closers)))).append (.singleton hlast)

end

/-- The blanks of one level. -/
theorem toList_indent (options : Options) :
    options.calls.indent.toList = List.replicate options.indentSize ' ' :=
  String.toList_ofList

theorem sits_block (options : Options) {name : String} (hname : isLabel name = true)
    {args : List (List String)} (hargs : ∀ arg ∈ args, ArgumentSits options.indentSize arg)
    {body : List String} (hbody : Sits options.indentSize body) :
    Sits options.indentSize (block options (blockHead options name args) body) := by
  intro closers
  have hopen : IsEnding " \x7b".toList := ⟨by simp [isCloser], by simp [Text.isBlank], by simp⟩
  have hhead : LaidOut options.indentSize closers.length closers (blockHead options name args)
      ('\x7d' :: closers) := by
    unfold blockHead
    cases args with
    | nil =>
      refine .singleton (lineAt_of_starts ((starts_of_isLabel hname).append _) ?_ ?_ ?_)
      · exact Stops.prepend ⟨'\x7b', rfl, by decide⟩ name
      · rw [String.toList_append, List.mem_append, not_or]
        exact ⟨(isFlat_of_isLabel hname).line, hopen.line⟩
      · rw [String.toList_append, Brackets.after_append, (isFlat_of_isLabel hname).after closers]
        rfl
    | cons arg args =>
      have hcall := argumentSits_call (toList_indent options) hname hargs
      exact (hcall.2 closers).endedWith hcall.1 hopen rfl
  refine laidOut_braces (toList_indent options) hhead hbody ?_
  exact lineAt_of_closes rfl rfl rfl ⟨'\x7d', rfl, by decide⟩ (by decide) rfl

end VectorIcon.Kotlin
