import Mathlib.Algebra.Ring.Parity
import VectorIcon.Proofs.Kotlin.Lines
import VectorIcon.Proofs.Kotlin.Nesting

/-!
# Escaped texts

A string literal goes from its quote to the next one that no backslash takes along. On the way it has no line
break, no dollar sign that would begin a template, and only the escapes of the language (`literal?`).

A text is written so that undoing the escapes gives it back, and so that backslashes take along each of its
quotes and dollar signs. Line feeds are escaped, but carriage returns are not: a text is a literal with its own
value just when it has none (`escape_lossless`).
-/

namespace VectorIcon.Kotlin

open Text

variable {c : Char} {s : List Char}

/-! ## Literals of the language -/

/-- The letters and marks of escapes, each with what it stands for after a backslash. -/
def escapes : List (Char × Char) :=
  [('t', '\t'), ('b', '\x08'), ('n', '\n'), ('r', '\r'), ('\x27', '\x27'), ('"', '"'), ('\\', '\\'), ('$', '$')]

/-- The text that the characters of a literal stand for; none with an escape that there is not, and with a quote
or a dollar sign that is not escaped. -/
def unescaped? : List Char → Option (List Char)
  | [] => some []
  | '\\' :: 'u' :: a :: b :: c :: d :: rest => do
    let n ← hexNumber? [a, b, c, d]
    let text ← unescaped? rest
    if n.isValidChar then some (Char.ofNat n :: text) else none
  | '\\' :: c :: rest => do return (← escapes.lookup c) :: (← unescaped? rest)
  | c :: rest => if c ∈ ['\\', '"', '$'] then none else (unescaped? rest).map (c :: ·)

/-- The parts of a text before and after the first quote that no backslash takes along. -/
def closed? : List Char → Option (List Char × List Char)
  | '\\' :: c :: rest => (closed? rest).map fun (body, rest) => ('\\' :: c :: body, rest)
  | '"' :: rest => some ([], rest)
  | c :: rest => (closed? rest).map fun (body, rest) => (c :: body, rest)
  | [] => none

/-- A character that ends a line. -/
def isLineBreak (c : Char) : Bool :=
  c == '\n' || c == '\r'

/-- The value of the string literal at the start of a text, and what follows the literal. -/
def literal? : List Char → Option (List Char × List Char)
  | '"' :: s => do
    let (body, rest) ← closed? s
    if body.any isLineBreak then none
    return (← unescaped? body, rest)
  | _ => none

/-! ## Undoing -/

theorem lookup_escapes {d : Char} (h : d ∈ ['\\', '"', '$', 'n']) :
    escapes.lookup d = some (unescape d) ∧ d ≠ 'u' := by
  simp only [List.mem_cons, List.not_mem_nil, or_false] at h
  rcases h with rfl | rfl | rfl | rfl <;> decide

theorem unescaped?_escapeChar (c : Char) (s : List Char) :
    unescaped? (escapeChar c ++ s) = (unescaped? s).map (c :: ·) := by
  rcases escapeChar_cases c with ⟨d, hd, heq, rfl⟩ | ⟨heq, hplain⟩
  · obtain ⟨hlookup, hcode⟩ := lookup_escapes hd
    rw [heq, List.cons_append, List.singleton_append, unescaped?, hlookup]
    · cases unescaped? s <;> rfl
    · simp [hcode]
  · have hslash : c ≠ '\\' := fun h => hplain (by rw [h]; decide)
    have hmark : c ∉ ['\\', '"', '$'] := fun h => hplain (List.mem_append_left ['\n'] h)
    rw [heq, List.singleton_append, unescaped?, if_neg hmark]
    · simp [hslash]
    · simp [hslash]

theorem unescaped?_escaped (s : List Char) : unescaped? (s.flatMap escapeChar) = some s := by
  induction s with
  | nil => rfl
  | cons c s ih => rw [List.flatMap_cons, unescaped?_escapeChar, ih, Option.map_some]

theorem closed?_escapeChar (c : Char) (s : List Char) :
    closed? (escapeChar c ++ s) = (closed? s).map fun (body, rest) => (escapeChar c ++ body, rest) := by
  rcases escapeChar_cases c with ⟨d, -, heq, -⟩ | ⟨heq, hplain⟩
  · rw [heq]
    rfl
  · have hslash : c ≠ '\\' := fun h => hplain (by rw [h]; decide)
    have hquote : c ≠ '"' := fun h => hplain (by rw [h]; decide)
    rw [heq, List.singleton_append, closed?]
    · rfl
    · simp [hslash]
    · exact hquote

theorem closed?_escaped (s rest : List Char) :
    closed? (s.flatMap escapeChar ++ '"' :: rest) = some (s.flatMap escapeChar, rest) := by
  induction s with
  | nil => rfl
  | cons c s ih => rw [List.flatMap_cons, List.append_assoc, closed?_escapeChar, ih, Option.map_some]

/-! ## Line breaks -/

theorem carriageReturn_mem_escapeChar : '\r' ∈ escapeChar c ↔ c = '\r' := by
  rcases escapeChar_cases c with ⟨d, hd, heq, rfl⟩ | ⟨heq, -⟩
  · rw [heq]
    simp only [List.mem_cons, List.not_mem_nil, or_false] at hd
    rcases hd with rfl | rfl | rfl | rfl <;> decide
  · rw [heq, List.mem_singleton, eq_comm]

theorem carriageReturn_mem_escaped : '\r' ∈ s.flatMap escapeChar ↔ '\r' ∈ s := by
  simp only [List.mem_flatMap, carriageReturn_mem_escapeChar, exists_eq_right]

theorem lineFeed_not_mem_escaped (s : List Char) : '\n' ∉ s.flatMap escapeChar := by
  simp only [List.mem_flatMap, lineFeed_not_mem_escapeChar, and_false, exists_false, not_false_eq_true]

theorem any_isLineBreak_escaped (s : List Char) :
    (s.flatMap escapeChar).any isLineBreak = true ↔ '\r' ∈ s := by
  rw [List.any_eq_true, ← carriageReturn_mem_escaped]
  constructor
  · rintro ⟨c, hc, hbreak⟩
    rw [isLineBreak, Bool.or_eq_true, beq_iff_eq, beq_iff_eq] at hbreak
    rcases hbreak with rfl | rfl
    · exact absurd hc (lineFeed_not_mem_escaped s)
    · exact hc
  · exact fun hc => ⟨'\r', hc, rfl⟩

/-! ## Backslashes -/

/-- The number of backslashes at the end of a text. -/
def backslashes (s : List Char) : Nat :=
  (s.reverse.takeWhile (· == '\\')).length

theorem backslashes_concat (s : List Char) (c : Char) :
    backslashes (s ++ [c]) = if c = '\\' then backslashes s + 1 else 0 := by
  rw [backslashes, List.reverse_concat, List.takeWhile_cons]
  split
  · next hc => rw [if_pos (beq_iff_eq.1 hc), List.length_cons, backslashes]
  · next hc => rw [if_neg (mt beq_iff_eq.2 hc), List.length_nil]

/-- After an even number of backslashes nothing is taken along, so each quote and dollar sign of what is escaped
then follows an odd number. -/
theorem odd_backslashes {start before after : List Char} (hstart : Even (backslashes start))
    (h : s.flatMap escapeChar = before ++ c :: after) (hc : c = '"' ∨ c = '$') :
    Odd (backslashes (start ++ before)) := by
  induction s generalizing start before with
  | nil => exact absurd h (by simp)
  | cons d s ih =>
    rw [List.flatMap_cons] at h
    rcases escapeChar_cases d with ⟨e, -, heq, -⟩ | ⟨heq, hplain⟩
    · rw [heq, List.cons_append, List.singleton_append] at h
      match before with
      | [] =>
        obtain ⟨rfl, -⟩ := List.cons.inj h
        exact absurd hc (by decide)
      | [b] =>
        obtain ⟨rfl, -⟩ := List.cons.inj h
        rw [backslashes_concat, if_pos rfl]
        exact hstart.add_one
      | b :: b' :: before =>
        obtain ⟨rfl, htail⟩ := List.cons.inj h
        obtain ⟨rfl, hrest⟩ := List.cons.inj htail
        have hpair : Even (backslashes (start ++ ['\\'] ++ [e])) := by
          rw [backslashes_concat, backslashes_concat, if_pos rfl]
          split
          · exact hstart.add_one.add_one
          · exact Even.zero
        have hodd := ih hpair hrest
        rwa [List.append_assoc, List.append_assoc] at hodd
    · rw [heq, List.singleton_append] at h
      match before with
      | [] =>
        obtain ⟨rfl, -⟩ := List.cons.inj h
        rcases hc with rfl | rfl
        · exact absurd hplain (by decide)
        · exact absurd hplain (by decide)
      | b :: before =>
        obtain ⟨rfl, hrest⟩ := List.cons.inj h
        have hslash : d ≠ '\\' := fun hd => hplain (by rw [hd]; decide)
        have heven : Even (backslashes (start ++ [d])) := by
          rw [backslashes_concat, if_neg hslash]
          exact Even.zero
        have hodd := ih heven hrest
        rwa [List.append_assoc] at hodd

/-! ## Names in code -/

/-- A text without carriage returns is the value of its literal, whatever follows. With one it is no literal. -/
theorem literal?_stringLiteral (text : String) (rest : List Char) :
    literal? ((stringLiteral text).toList ++ rest) =
      if '\r' ∈ text.toList then none else some (text.toList, rest) := by
  rw [toList_stringLiteral, List.cons_append, List.append_assoc, List.singleton_append, literal?, closed?_escaped]
  by_cases hreturn : '\r' ∈ text.toList
  · have hbreak := (any_isLineBreak_escaped text.toList).2 hreturn
    rw [if_pos hreturn, Option.bind_eq_bind, Option.bind_some]
    dsimp only
    rw [if_pos hbreak]
    rfl
  · have hbreak := mt (any_isLineBreak_escaped text.toList).1 hreturn
    rw [if_neg hreturn, Option.bind_eq_bind, Option.bind_some]
    dsimp only
    rw [if_neg hbreak, unescaped?_escaped]
    rfl

/-- The code of an icon begins with its name. -/
theorem exists_builderLines_eq (options : Options) (overrides : Overrides) (icon : Icon) :
    ∃ rest, builderLines options overrides icon =
      "ImageVector.Builder(" :: (options.indent ++ ("name = " ++ stringLiteral icon.name ++ ",")) :: rest :=
  ⟨_, rfl⟩

/-- The lines of a group that has a name begin with it. -/
theorem exists_nodeLines_eq (options : Options) (colors : ColorStyle) (depth : Nat) (p : Icon.Placement)
    (name : String) (children : List Icon.Node) :
    ∃ ending rest, (ending = "," ∨ ending = "") ∧
      nodeLines options colors depth (.group { p with name := some name } children) =
        "group(" :: (options.indent ++ ("name = " ++ stringLiteral name ++ ending)) :: rest := by
  obtain ⟨others, hothers⟩ : ∃ others, placementArguments options depth { p with name := some name } =
      ["name = " ++ stringLiteral name] :: others := ⟨_, rfl⟩
  have hhead : blockHead options "group" (["name = " ++ stringLiteral name] :: others) =
      "group(" :: options.calls.arguments (["name = " ++ stringLiteral name] :: others) ++ [")" ++ " \x7b"] :=
    endedWith_concat _ _ _
  rw [nodeLines, hothers, block, hhead]
  cases others with
  | nil =>
    refine ⟨if options.trailingCommas then "," else "", _, ?_, rfl⟩
    cases options.trailingCommas
    · exact .inr rfl
    · exact .inl rfl
  | cons argument others => exact ⟨",", _, .inl rfl, rfl⟩

/-- A text is escaped without loss, and each quote and dollar sign in it is taken along by a backslash. No line
feed is left, but carriage returns are, so that exactly the texts without these are literals. The names of icons
and groups are written as such literals on lines of their own. -/
theorem escape_lossless (text : String) :
    '\n' ∉ (escape text).toList ∧ ('\r' ∈ (escape text).toList ↔ '\r' ∈ text.toList) ∧
      (∀ before c after, (escape text).toList = before ++ c :: after → c = '"' ∨ c = '$' →
        Odd (backslashes before)) ∧
      unescaped? (escape text).toList = some text.toList ∧
      (∀ rest, literal? ((stringLiteral text).toList ++ rest) =
        if '\r' ∈ text.toList then none else some (text.toList, rest)) ∧
      (∀ options overrides (icon : Icon), ∃ rest, builderLines options overrides { icon with name := text } =
        "ImageVector.Builder(" :: (options.indent ++ ("name = " ++ stringLiteral text ++ ",")) :: rest) ∧
      ∀ options colors depth (p : Icon.Placement) children, ∃ ending rest, (ending = "," ∨ ending = "") ∧
        nodeLines options colors depth (.group { p with name := some text } children) =
          "group(" :: (options.indent ++ ("name = " ++ stringLiteral text ++ ending)) :: rest := by
  rw [escape, String.toList_ofList]
  refine ⟨lineFeed_not_mem_escaped _, carriageReturn_mem_escaped, fun before c after h hc => ?_,
    unescaped?_escaped _, literal?_stringLiteral text,
    fun options overrides icon => exists_builderLines_eq options overrides _,
    fun options colors depth p children => exists_nodeLines_eq options colors depth p text children⟩
  have hnone : Even (backslashes []) := Even.zero
  have hodd := odd_backslashes hnone h hc
  rwa [List.nil_append] at hodd

/-- A carriage return is left as it is. -/
theorem escape_carriageReturn :
    (escape "a\rb").toList = ['a', '\r', 'b'] ∧ literal? (stringLiteral "a\rb").toList = none := by
  decide +kernel

end VectorIcon.Kotlin
