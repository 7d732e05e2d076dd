import VectorIcon.Proofs.Color.Argb
import VectorIcon.Proofs.Kotlin.Arguments
import VectorIcon.Proofs.Kotlin.Number
import VectorIcon.Proofs.Number.Value
import VectorIcon.Kotlin.Paint

/-!
# Color expressions as tokens

A color is written by a constant, by a constant with another alpha channel, or as a word. `denoted?`
says which color such tokens stand for, with the alpha channel as the byte next to an exact fraction.
What a color is written as stands for that color (`denoted?_colorTokens`), as no two constants have one
name and an error of half a thousandth moves an alpha channel by less than half a byte.
-/

namespace VectorIcon.Kotlin

/-- The tokens of a color expression. -/
def colorTokens (named : Bool) (c : Color) : List Token :=
  match if named then c.constantName? else none with
  | some name =>
    .word "Color" :: .mark '.' :: .word name :: if c.isSolid then []
      else [.mark '.', .word "copy", .mark '(', .word "alpha", .mark '=', .word (alphaLiteral c.alpha),
        .mark ')']
  | none => [.word "Color", .mark '(', .word ("0x" ++ Color.hexText 8 c.argb), .mark ')']

/-! ## Constants -/

theorem exists_constant {named : Bool} {c : Color} {name : String}
    (h : (if named then c.constantName? else none) = some name) :
    ∃ entry ∈ Color.constants, entry.1 = name ∧ entry.2 = c.rgb := by
  cases named with
  | false => cases h
  | true =>
    rw [if_pos rfl, Color.constantName?] at h
    obtain ⟨entry, hfind, hname⟩ := Option.map_eq_some_iff.1 h
    refine ⟨entry, List.mem_of_find?_eq_some hfind, hname, ?_⟩
    have hrgb := List.find?_some hfind
    exact beq_iff_eq.1 hrgb

theorem isWord_of_constant : ∀ entry ∈ Color.constants, isWord entry.1 = true := by
  decide

/-- No two constants have the same name. -/
theorem lookup_constants : ∀ entry ∈ Color.constants,
    Color.constants.lookup entry.1 = some entry.2 := by
  decide

/-! ## Alpha channels -/

/-- Thousandths as they are written, with the zeros at the end left out. -/
def thousandthsText (k : Nat) : List Char :=
  let places := Text.dropEndWhile (· == '0') (threeDigits (k % 1000))
  Nat.toDigits 10 (k / 1000) ++ (if places.isEmpty then [] else '.' :: places)

theorem alphaLiteral_eq (alpha : UInt8) :
    alphaLiteral alpha = String.ofList (thousandthsText (alphaThousandths alpha) ++ ['f']) := rfl

/-- The thousandths are those that a division of doubles gives. -/
theorem nearestWhole?_alpha (alpha : UInt8) :
    Number.nearestWhole? (alpha.toFloat / 255.0 * 1000.0) = some (alphaThousandths alpha : Int) := by
  have hall : ∀ n : Fin 256, Number.nearestWhole? ((UInt8.ofNat n.val).toFloat / 255.0 * 1000.0) =
      some (alphaThousandths (UInt8.ofNat n.val) : Int) := by
    decide +kernel
  have hbyte := hall ⟨alpha.toNat, alpha.toNat_lt⟩
  rwa [UInt8.ofNat_toNat] at hbyte

theorem isDigits_threeDigits {n : Nat} (h : n < 1000) : Number.IsDigits (threeDigits n) := by
  have hdigit : ∀ d : Fin 10, Text.isDigit (Nat.digitChar d.val) = true := by decide
  intro c hc
  simp only [threeDigits, List.mem_cons, List.not_mem_nil, or_false] at hc
  rcases hc with rfl | rfl | rfl
  · exact hdigit ⟨n / 100, by omega⟩
  · exact hdigit ⟨n / 10 % 10, by omega⟩
  · exact hdigit ⟨n % 10, by omega⟩

theorem isDigits_places (n : Nat) :
    Number.IsDigits (Text.dropEndWhile (· == '0') (threeDigits (n % 1000))) := by
  intro c hc
  rw [Text.dropEndWhile, List.mem_reverse] at hc
  have hmem := List.mem_reverse.1 ((List.dropWhile_suffix _).subset hc)
  exact isDigits_threeDigits (Nat.mod_lt n (by omega)) c hmem

theorem isPlain_thousandthsText (k : Nat) : IsPlain (thousandthsText k) := by
  unfold thousandthsText
  dsimp only
  split
  · rw [List.append_nil]
    exact .whole Nat.toDigits_ne_nil (Number.isDigits_toDigits _)
  · next hne =>
    refine .point Nat.toDigits_ne_nil (Number.isDigits_toDigits _) ?_ (isDigits_places k)
    rwa [List.isEmpty_iff] at hne

theorem reads_alphaLiteral (alpha : UInt8) :
    Reads (alphaLiteral alpha) [.word (alphaLiteral alpha)] := by
  have hf : ∀ c ∈ ['f'], isWordChar c = true := List.all_eq_true.1 (by decide)
  refine IsRun.reads ?_
  rw [alphaLiteral_eq, String.toList_ofList]
  exact (isPlain_thousandthsText _).isRun.append hf

/-! ## Expressions -/

theorem reads_hexText (word : UInt32) :
    Reads ("0x" ++ Color.hexText 8 word) [.word ("0x" ++ Color.hexText 8 word)] := by
  have hzero : IsRun "0x".toList := isRun_of_isWord (by decide)
  have hdigits : ∀ c ∈ (Color.hexText 8 word).toList, isWordChar c = true := by
    intro c hc
    have hall : ∀ d : Fin 16, isWordChar (Color.hexDigit d.val) = true := by decide
    rw [Color.hexText, String.toList_ofList] at hc
    obtain ⟨d, rfl⟩ := Color.exists_hexDigit_of_mem hc
    exact hall d
  refine IsRun.reads ?_
  rw [String.toList_append]
  exact hzero.append hdigits

theorem reads_colorExpression (named : Bool) (c : Color) :
    Reads (colorExpression c named) (colorTokens named c) := by
  have hcolor : Ends "Color(" [.word "Color", .mark '('] := by decide
  unfold colorExpression colorTokens
  cases hname : if named then c.constantName? else none with
  | some name =>
    obtain ⟨entry, hentry, rfl, -⟩ := exists_constant hname
    have hdot : Ends "Color." [.word "Color", .mark '.'] := by decide
    have hrun := isRun_of_isWord (isWord_of_constant entry hentry)
    by_cases hsolid : c.isSolid = true
    · simp only [if_pos hsolid]
      exact hdot.append_reads hrun.reads
    · simp only [if_neg hsolid]
      have hcopy : Ends "copy(alpha = " [.word "copy", .mark '(', .word "alpha", .mark '='] := by
        decide
      have hmember := hrun.append_member hcopy.reads (by decide)
      have hname : Ends (entry.1 ++ ".copy(alpha = ") _ :=
        ⟨hmember.1.1, hmember.2.trans hcopy.2⟩
      have hstart := hdot.append_ends hname
      rw [← String.append_assoc] at hstart
      exact (hstart.append_reads (reads_alphaLiteral c.alpha)).then_close
  | none =>
    exact (hcolor.append_reads (reads_hexText c.argb)).then_close

theorem isUnit_colorTokens (named : Bool) (c : Color) : IsUnit (colorTokens named c) := by
  unfold colorTokens
  split
  · split <;> exact ⟨List.cons_ne_nil _ _, rfl⟩
  · exact ⟨List.cons_ne_nil _ _, rfl⟩

/-! ## What is denoted -/

/-- The opaque color of a constant. -/
def constant? (name : String) : Option Color :=
  (Color.constants.lookup name).map fun rgb => Color.withAlpha ⟨rgb⟩ 255

/-- The number that a literal writes before its letter. -/
def writtenNumber? (text : String) : Option ℚ :=
  (Text.before? ['f'] text.toList).bind Number.exactValue?

/-- The byte next to a fraction of 255, when one is nearer than all others. -/
def nearestByte? (q : ℚ) : Option UInt8 :=
  let n := round (255 * q)
  if 0 ≤ n ∧ n ≤ 255 ∧ |255 * q - n| < 1 / 2 then some (UInt8.ofNat n.toNat) else none

/-- The color of a word with eight hexadecimal digits. -/
def wordColor? (text : String) : Option Color := do
  let digits ← Text.after? "0x".toList text.toList
  if digits.length = 8 then (Text.hexNumber? digits).map fun n => ⟨UInt32.ofNat n⟩ else none

/-- The color that tokens denote: a constant, a constant with another alpha channel, or a word. -/
def denoted? : List Token → Option Color
  | [.word "Color", .mark '.', .word name] => constant? name
  | [.word "Color", .mark '.', .word name, .mark '.', .word "copy", .mark '(', .word "alpha",
      .mark '=', .word fraction, .mark ')'] => do
    let c ← constant? name
    let alpha ← (writtenNumber? fraction).bind nearestByte?
    return c.withAlpha alpha
  | [.word "Color", .mark '(', .word text, .mark ')'] => wordColor? text
  | _ => none

/-- The color that a text denotes. -/
def colorOf? (text : String) : Option Color :=
  denoted? (tokensOf text)

theorem nearestByte?_eq_some_iff {q : ℚ} {byte : UInt8} :
    nearestByte? q = some byte ↔ |255 * q - byte.toNat| < 1 / 2 := by
  have hlt := byte.toNat_lt
  unfold nearestByte?
  dsimp only
  constructor
  · intro h
    split at h
    · next hn =>
      obtain ⟨hlow, hhigh, hnear⟩ := hn
      have hround : ((round (255 * q)).toNat : Int) = round (255 * q) := Int.toNat_of_nonneg hlow
      have hbyte : byte.toNat = (round (255 * q)).toNat := by
        rw [← Option.some.inj h, UInt8.toNat_ofNat']
        omega
      rwa [hbyte, ← Int.cast_natCast, hround]
    · cases h
  · intro h
    have hround : round (255 * q) = (byte.toNat : Int) := by
      have hnear := abs_lt.1 h
      rw [round_eq_iff, Int.cast_natCast]
      exact ⟨by linarith, by linarith⟩
    rw [hround, Int.cast_natCast, if_pos ⟨by omega, by omega, h⟩, Int.toNat_natCast,
      UInt8.ofNat_toNat]

theorem constant?_eq_some {c : Color} {entry : String × UInt32} (hentry : entry ∈ Color.constants)
    (hrgb : entry.2 = c.rgb) : constant? entry.1 = some (Color.withAlpha ⟨c.rgb⟩ 255) := by
  rw [constant?, lookup_constants entry hentry, Option.map_some, hrgb]

theorem decimalNumber_threeDigits {n : Nat} (h : n < 1000) :
    Text.decimalNumber (threeDigits n) = n := by
  have hdigit {d : Nat} (h : d < 10) : (Nat.digitChar d).toNat - '0'.toNat = d :=
    Nat.toNat_digitChar_sub_48_of_lt_ten h
  show 10 * (10 * (10 * 0 + _) + _) + _ = n
  rw [hdigit (by omega), hdigit (by omega), hdigit (by omega)]
  omega

/-- Leaving out zeros leaves the number that is written. -/
theorem exactValue?_thousandthsText (k : Nat) :
    Number.exactValue? (thousandthsText k) = some (k / 1000 : ℚ) := by
  have hdecimal : Number.IsDecimal (thousandthsText k) (Nat.toDigits 10 (k / 1000))
      (Text.dropEndWhile (· == '0') (threeDigits (k % 1000))) := by
    unfold thousandthsText
    dsimp only
    split
    · next hnil =>
      rw [List.append_nil, List.isEmpty_iff.1 hnil]
      exact .whole Nat.toDigits_ne_nil (Number.isDigits_toDigits _)
    · exact .point Nat.toDigits_ne_nil (Number.isDigits_toDigits _) (isDigits_places k)
  have hthree := decimalNumber_threeDigits (Nat.mod_lt k (by decide : 0 < 1000))
  have hlength : (threeDigits (k % 1000)).length = 3 := rfl
  rw [Number.exactValue?_of_isDecimal hdecimal, Number.Numeral.value_dropEndWhile,
    Number.Numeral.value_point, Number.decimalNumber_append, Number.decimalNumber_toDigits, hthree, hlength]
  have hdivision : 10 ^ 3 * (k / 1000) + k % 1000 = k := Nat.div_add_mod k 1000
  rw [hdivision]
  norm_num

/-- The number that is written is next to the fraction that the alpha channel is. -/
theorem alpha_of_alphaLiteral (alpha : UInt8) :
    (writtenNumber? (alphaLiteral alpha)).bind nearestByte? = some alpha := by
  have hbefore : Text.before? ['f'] (alphaLiteral alpha).toList =
      some (thousandthsText (alphaThousandths alpha)) := by
    rw [alphaLiteral_eq, String.toList_ofList, Text.before?]
    simp
  rw [writtenNumber?, hbefore, Option.bind_some, exactValue?_thousandthsText, Option.bind_some,
    nearestByte?_eq_some_iff]
  have hlow : 510 * alphaThousandths alpha ≤ 2000 * alpha.toNat + 255 := by
    unfold alphaThousandths
    omega
  have hhigh : 2000 * alpha.toNat + 255 < 510 * alphaThousandths alpha + 510 := by
    unfold alphaThousandths
    omega
  qify at hlow hhigh
  rw [abs_lt]
  exact ⟨by linarith, by linarith⟩

theorem wordColor?_hexText (c : Color) : wordColor? ("0x" ++ Color.hexText 8 c.argb) = some c := by
  have hlt : c.argb.toNat < 16 ^ 8 := c.argb.toNat_lt
  have hafter : Text.after? "0x".toList ("0x" ++ Color.hexText 8 c.argb).toList =
      some (Color.hexDigits 8 c.argb.toNat) := by
    rw [Color.hexText, String.toList_append, String.toList_ofList, Text.after?]
    simp
  rw [wordColor?, hafter, Option.bind_eq_bind, Option.bind_some, if_pos (Color.length_hexDigits ..),
    Color.hexNumber?_hexDigits, Option.map_some, Nat.mod_eq_of_lt hlt, UInt32.ofNat_toNat]

/-- The tokens of a color expression denote the color. -/
theorem denoted?_colorTokens (named : Bool) (c : Color) : denoted? (colorTokens named c) = some c := by
  unfold colorTokens
  cases hname : if named then c.constantName? else none with
  | some name =>
    obtain ⟨entry, hentry, rfl, hrgb⟩ := exists_constant hname
    have hconstant := constant?_eq_some hentry hrgb
    by_cases hsolid : c.isSolid = true
    · have halpha : c.alpha = 255 := beq_iff_eq.1 hsolid
      simp only [if_pos hsolid, denoted?]
      rw [hconstant, ← halpha, Color.withAlpha_alpha (Color.rgb_rgb c)]
    · simp only [if_neg hsolid, denoted?]
      rw [hconstant, alpha_of_alphaLiteral]
      show some (Color.withAlpha (Color.withAlpha ⟨c.rgb⟩ 255) c.alpha) = some c
      rw [Color.withAlpha_alpha ((Color.rgb_withAlpha _ _).trans (Color.rgb_rgb c))]
  | none =>
    show wordColor? _ = some c
    exact wordColor?_hexText c

/-- The tokens of a color expression give back the color. -/
theorem colorTokens_inj {named : Bool} {c d : Color} (h : colorTokens named c = colorTokens named d) :
    c = d := by
  have hdenoted := denoted?_colorTokens named c
  rw [h, denoted?_colorTokens] at hdenoted
  exact (Option.some.inj hdenoted).symm

/-- The text of a color denotes it, so no other color has the same text in either setting. -/
theorem color_text (named : Bool) (c : Color) :
    colorOf? (colorExpression c named) = some c ∧
      ∀ named' d, colorExpression d named' = colorExpression c named → d = c := by
  have hdenoted (named : Bool) (c : Color) : colorOf? (colorExpression c named) = some c := by
    rw [colorOf?, (reads_colorExpression named c).1, denoted?_colorTokens]
  refine ⟨hdenoted named c, fun named' d h => ?_⟩
  have hd := hdenoted named' d
  rw [h, hdenoted] at hd
  exact (Option.some.inj hd).symm

example : colorOf? "Color.Red.copy(alpha = 0.502f)" = some ⟨0x80FF0000⟩ := by
  decide +kernel

end VectorIcon.Kotlin
