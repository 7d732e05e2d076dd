import VectorIcon.Proofs.Kotlin.Command

/-!
# Brackets of code

A reader of brackets goes over code character by character. Outside of string literals a parenthesis or a
brace opens, or closes the innermost bracket that is open; in a literal brackets are text, and a backslash
takes the next character along.

A text is flat if it stays on its line and leaves the brackets as they are, whatever is open around it.
Flat texts may be put together and into parentheses, and all literals and expressions that code has on one
line are flat.
-/

namespace VectorIcon.Kotlin

open Icon

/-- Where a reader of brackets is: outside of string literals, in one, or after a backslash in one. -/
inductive Place
  | outside
  | literal
  | escape
  deriving Repr, DecidableEq

/-- A reader of brackets: its place, and what closes the open brackets, the innermost first. -/
structure Brackets where
  place : Place
  closers : List Char
  deriving Repr, DecidableEq

/-- The bracket that closes the one that a character opens. -/
def closerOf? (c : Char) : Option Char :=
  if c = '(' then some ')' else if c = '{' then some '}' else none

/-- The character closes a bracket. -/
def isCloser (c : Char) : Bool :=
  c == ')' || c == '}'

/-- The brackets after a character; none if it closes a bracket that is not the innermost. -/
def Brackets.step (b : Brackets) (c : Char) : Option Brackets :=
  match b.place with
  | .outside =>
    if c = '"' then some { b with place := .literal }
    else if isCloser c then
      if b.closers.head? = some c then some { b with closers := b.closers.tail } else none
    else some { b with closers := (closerOf? c).toList ++ b.closers }
  | .literal =>
    some { b with place := if c = '"' then .outside else if c = '\\' then .escape else .literal }
  | .escape => some { b with place := .literal }

/-- The brackets after a text. -/
def Brackets.after (b : Brackets) (s : List Char) : Option Brackets :=
  s.foldlM Brackets.step b

theorem Brackets.after_append (b : Brackets) (s t : List Char) :
    b.after (s ++ t) = (b.after s).bind (·.after t) :=
  List.foldlM_append

theorem Brackets.after_cons (b : Brackets) (c : Char) (s : List Char) :
    b.after (c :: s) = (b.step c).bind (·.after s) :=
  List.foldlM_cons

/-! ## Flat texts -/

/-- The text stays on its line and leaves the brackets around it as they are. -/
structure IsFlat (s : String) : Prop where
  line : '\n' ∉ s.toList
  after : ∀ closers, (Brackets.mk .outside closers).after s.toList = some ⟨.outside, closers⟩

/-- The text stays on its line and opens one parenthesis. -/
structure Opens (s : String) : Prop where
  line : '\n' ∉ s.toList
  after : ∀ closers, (Brackets.mk .outside closers).after s.toList = some ⟨.outside, ')' :: closers⟩

/-- The character is no quote, bracket or line feed. -/
def isNeutral (c : Char) : Bool :=
  c != '"' && !isCloser c && (closerOf? c).isNone && c != '\n'

theorem after_of_neutral {s : List Char} (h : ∀ c ∈ s, isNeutral c = true) (closers : List Char) :
    (Brackets.mk .outside closers).after s = some ⟨.outside, closers⟩ := by
  induction s with
  | nil => rfl
  | cons c s ih =>
    have hc := h c (List.mem_cons_self ..)
    simp only [isNeutral, Bool.and_eq_true, bne_iff_ne, Bool.not_eq_true', Option.isNone_iff_eq_none]
      at hc
    obtain ⟨⟨⟨hquote, hcloser⟩, hopener⟩, -⟩ := hc
    have hstep : (Brackets.mk .outside closers).step c = some ⟨.outside, closers⟩ := by
      simp [Brackets.step, hquote, hcloser, hopener]
    rw [Brackets.after_cons, hstep]
    exact ih fun d hd => h d (List.mem_cons_of_mem _ hd)

theorem isFlat_of_neutral {s : String} (h : ∀ c ∈ s.toList, isNeutral c = true) : IsFlat s := by
  refine ⟨fun hline => ?_, after_of_neutral h⟩
  exact absurd (h _ hline) (by decide)

/-- A text of words, numbers and blanks. -/
theorem isFlat_of_all {s : String} (h : s.toList.all isNeutral = true) : IsFlat s :=
  isFlat_of_neutral (List.all_eq_true.1 h)

section

variable {a b : String}

theorem IsFlat.append (ha : IsFlat a) (hb : IsFlat b) : IsFlat (a ++ b) := by
  constructor
  · rw [String.toList_append, List.mem_append, not_or]
    exact ⟨ha.line, hb.line⟩
  · intro closers
    rw [String.toList_append, Brackets.after_append, ha.after closers]
    exact hb.after closers

theorem IsFlat.opens (ha : IsFlat a) (hb : Opens b) : Opens (a ++ b) := by
  constructor
  · rw [String.toList_append, List.mem_append, not_or]
    exact ⟨ha.line, hb.line⟩
  · intro closers
    rw [String.toList_append, Brackets.after_append, ha.after closers]
    exact hb.after closers

theorem Opens.append (ha : Opens a) (hb : IsFlat b) : Opens (a ++ b) := by
  constructor
  · rw [String.toList_append, List.mem_append, not_or]
    exact ⟨ha.line, hb.line⟩
  · intro closers
    rw [String.toList_append, Brackets.after_append, ha.after closers]
    exact hb.after (')' :: closers)

theorem Opens.close (h : Opens a) : IsFlat (a ++ ")") := by
  have hclose (closers : List Char) : (Brackets.mk .outside (')' :: closers)).after [')'] =
      some ⟨.outside, closers⟩ := rfl
  constructor
  · rw [String.toList_append, List.mem_append, not_or]
    exact ⟨h.line, by decide⟩
  · intro closers
    rw [String.toList_append, Brackets.after_append, h.after closers]
    exact hclose closers

theorem isFlat_intercalate (ha : IsFlat a) {texts : List String} (h : ∀ s ∈ texts, IsFlat s) :
    IsFlat (a.intercalate texts) := by
  induction texts with
  | nil => exact isFlat_of_all rfl
  | cons s texts ih =>
    have hs := h s (List.mem_cons_self ..)
    cases texts with
    | nil => rwa [String.intercalate_singleton]
    | cons t texts =>
      rw [String.intercalate_cons_cons]
      exact (hs.append ha).append (ih fun t ht => h t (List.mem_cons_of_mem _ ht))

theorem isNeutral_of_isWordChar {c : Char} (h : isWordChar c = true) : isNeutral c = true := by
  have hne {d : Char} (hd : isWordChar d = false) : c ≠ d := by
    rintro rfl
    rw [h] at hd
    cases hd
  simp [isNeutral, isCloser, closerOf?, hne (d := '"') rfl, hne (d := '(') rfl, hne (d := ')') rfl,
    hne (d := '{') rfl, hne (d := '}') rfl, hne (d := '\n') rfl]

end

/-! ## Literals -/

/-- A character of numbers, with their points and signs. -/
def isNumberChar (c : Char) : Bool :=
  isWordChar c || c == '.' || c == '-'

theorem isNeutral_of_isNumberChar {c : Char} (h : isNumberChar c = true) : isNeutral c = true := by
  simp only [isNumberChar, Bool.or_eq_true, beq_iff_eq] at h
  rcases h with (h | rfl) | rfl
  · exact isNeutral_of_isWordChar h
  · decide
  · decide

theorem isNumberChar_of_isPlain {s : List Char} (h : IsPlain s) : ∀ c ∈ s, isNumberChar c = true := by
  have hdigits {s : List Char} (h : Number.IsDigits s) : ∀ c ∈ s, isNumberChar c = true := by
    intro c hc
    simp [isNumberChar, isWordChar_of_isDigit (h c hc)]
  cases h with
  | whole _ hw => exact hdigits hw
  | point _ hw _ hf =>
    intro c hc
    rcases List.mem_append.1 hc with hc | hc
    · exact hdigits hw c hc
    · rcases List.mem_cons.1 hc with rfl | hc
      · decide
      · exact hdigits hf c hc

theorem isNumberChar_floatLiteral (v : Float) :
    ∀ c ∈ (floatLiteral v).toList, isNumberChar c = true := by
  intro c hc
  rw [floatLiteral, String.toList_append] at hc
  rcases List.mem_append.1 hc with hc | hc
  · rcases display_cases (literalValue v) with ⟨s, hs, heq⟩ | ⟨s, hs, heq⟩ | hmem
    · exact isNumberChar_of_isPlain hs c (heq ▸ hc)
    · rw [heq] at hc
      rcases List.mem_cons.1 hc with rfl | hc
      · decide
      · exact isNumberChar_of_isPlain hs c hc
    · have hwords : ∀ s ∈ ["inf", "-inf", "NaN"], s.toList.all isNumberChar = true := by decide
      exact List.all_eq_true.1 (hwords _ hmem) c hc
  · have hf : "f".toList.all isNumberChar = true := by decide
    exact List.all_eq_true.1 hf c hc

theorem isFlat_floatLiteral (v : Float) : IsFlat (floatLiteral v) :=
  isFlat_of_neutral fun c hc => isNeutral_of_isNumberChar (isNumberChar_floatLiteral v c hc)

theorem isFlat_sizeLiteral (v : Float) : IsFlat (sizeLiteral v) :=
  (isFlat_floatLiteral v).append (isFlat_of_all (by decide))

theorem isFlat_alphaLiteral (alpha : UInt8) : IsFlat (alphaLiteral alpha) := by
  refine isFlat_of_neutral fun c hc => ?_
  rw [alphaLiteral_eq, String.toList_ofList] at hc
  rcases List.mem_append.1 hc with hc | hc
  · exact isNeutral_of_isNumberChar (isNumberChar_of_isPlain (isPlain_thousandthsText _) c hc)
  · rw [List.mem_singleton.1 hc]
    decide

theorem isFlat_hexText (word : UInt32) : IsFlat (Color.hexText 8 word) := by
  have hall : ∀ d : Fin 16, isNeutral (Color.hexDigit d.val) = true := by decide
  refine isFlat_of_neutral fun c hc => ?_
  rw [Color.hexText, String.toList_ofList] at hc
  obtain ⟨d, rfl⟩ := Color.exists_hexDigit_of_mem hc
  exact hall d

/-- An escaped character is read as a part of its literal. -/
theorem after_escapeChar (closers : List Char) (c : Char) (s : List Char) :
    (Brackets.mk .literal closers).after (escapeChar c ++ s) =
      (Brackets.mk .literal closers).after s := by
  rcases escapeChar_cases c with ⟨d, -, heq, -⟩ | ⟨heq, hplain⟩
  · rw [heq]
    rfl
  · have hslash : c ≠ '\\' := fun h => hplain (by rw [h]; decide)
    have hquote : c ≠ '"' := fun h => hplain (by rw [h]; decide)
    have hstep : (Brackets.mk .literal closers).step c = some ⟨.literal, closers⟩ := by
      simp [Brackets.step, hslash, hquote]
    rw [heq, List.singleton_append, Brackets.after_cons, hstep]
    rfl

theorem lineFeed_not_mem_escapeChar (c : Char) : '\n' ∉ escapeChar c := by
  unfold escapeChar
  split_ifs <;> simp_all [eq_comm]

theorem isFlat_stringLiteral (text : String) : IsFlat (stringLiteral text) := by
  have hescaped (closers s : List Char) :
      (Brackets.mk .literal closers).after (s.flatMap escapeChar ++ ['"']) =
        some ⟨.outside, closers⟩ := by
    induction s with
    | nil => rfl
    | cons c s ih => rw [List.flatMap_cons, List.append_assoc, after_escapeChar, ih]
  constructor
  · rw [toList_stringLiteral]
    simp [lineFeed_not_mem_escapeChar]
  · intro closers
    rw [toList_stringLiteral, Brackets.after_cons]
    exact hescaped closers text.toList

/-! ## Expressions -/

theorem isFlat_colorExpression (named : Bool) (c : Color) : IsFlat (colorExpression c named) := by
  have hconstants : ∀ entry ∈ Color.constants, entry.1.toList.all isNeutral = true := by decide
  unfold colorExpression
  cases hname : if named then c.constantName? else none with
  | some name =>
    obtain ⟨entry, hentry, rfl, -⟩ := exists_constant hname
    have hcopy : Opens ".copy(alpha = " := ⟨by decide, fun _ => rfl⟩
    have hcolor := (isFlat_of_all (s := "Color.") (by decide)).append
      (isFlat_of_all (hconstants entry hentry))
    cases c.isSolid with
    | true => exact hcolor
    | false => exact ((hcolor.opens hcopy).append (isFlat_alphaLiteral c.alpha)).close
  | none =>
    have hcolor : Opens "Color(0x" := ⟨by decide, fun _ => rfl⟩
    exact (hcolor.append (isFlat_hexText c.argb)).close

theorem isFlat_pointExpression (p : Point) : IsFlat (pointExpression p) := by
  have hoffset : Opens "Offset(" := ⟨by decide, fun _ => rfl⟩
  have hcomma : IsFlat ", " := isFlat_of_all (by decide)
  exact (((hoffset.append (isFlat_floatLiteral p.x)).append hcomma).append
    (isFlat_floatLiteral p.y)).close

theorem isFlat_argumentList (c : Path.Command Float) : IsFlat (argumentList c) := by
  have hopen : Opens "(" := ⟨by decide, fun _ => rfl⟩
  have hargument (a : Path.Argument Float) : IsFlat (argumentText a) := by
    cases a with
    | number v => exact isFlat_floatLiteral v
    | flag b => cases b <;> exact isFlat_of_all (by decide)
  refine (hopen.append (isFlat_intercalate (isFlat_of_all (by decide)) fun s hs => ?_)).close
  obtain ⟨a, -, rfl⟩ := List.mem_map.1 hs
  exact hargument a

theorem isFlat_pathNode (c : Path.Command Float) : IsFlat (pathNode c) := by
  have hnames : ∀ letter ∈ letters, (nodeName letter).toList.all isNeutral = true := by decide
  have hname := isFlat_of_all (hnames c.letter (mem_letters c.letter))
  unfold pathNode
  cases hletter : c.letter with
  | close =>
    rw [hletter] at hname
    exact hname
  | draw frame kind =>
    rw [hletter] at hname
    exact hname.append (isFlat_argumentList c)

theorem isFlat_clipLine (clip : List (Path.Command Float)) : IsFlat (clipLine clip) := by
  have hlist : Opens "clipPathData = listOf(" := ⟨by decide, fun _ => rfl⟩
  refine (hlist.append (isFlat_intercalate (isFlat_of_all (by decide)) fun s hs => ?_)).close
  obtain ⟨c, -, rfl⟩ := List.mem_map.1 hs
  exact isFlat_pathNode c

end VectorIcon.Kotlin
