import Mathlib
import VectorIcon.Proofs.Kotlin.Token
import VectorIcon.Proofs.Number.Value

/-!
# Number literals as tokens

A number literal is one word, after a minus for a negative number (`floatLiteral_cases`). So its tokens
give back its text, whatever follows (`numberTokens_append_inj`).
-/

namespace VectorIcon.Kotlin

open Number

/-! ## Numbers without a power of ten -/

/-- Digits, and perhaps a point with digits after it. -/
inductive IsPlain : List Char → Prop
  | whole {w} : w ≠ [] → IsDigits w → IsPlain w
  | point {w f} : w ≠ [] → IsDigits w → f ≠ [] → IsDigits f → IsPlain (w ++ '.' :: f)

theorem IsPlain.isDigit_or {s : List Char} (h : IsPlain s) {c : Char} (hc : c ∈ s) :
    Text.isDigit c = true ∨ c = '.' := by
  cases h with
  | whole _ hw => exact .inl (hw c hc)
  | point _ hw _ hf =>
    rw [List.mem_append, List.mem_cons] at hc
    rcases hc with hc | rfl | hc
    · exact .inl (hw c hc)
    · exact .inr rfl
    · exact .inl (hf c hc)

theorem isDigits_append {s t : List Char} (hs : IsDigits s) (ht : IsDigits t) :
    IsDigits (s ++ t) := by
  intro c hc
  rcases List.mem_append.1 hc with hc | hc
  · exact hs c hc
  · exact ht c hc

theorem isDigits_zeros (n : Nat) : IsDigits (List.replicate n '0') := by
  intro c hc
  rw [List.eq_of_mem_replicate hc]
  decide

/-- With a negative power of ten there are as many places as it says, and the digits end the text. -/
theorem exists_positional_of_neg {digits : List Char} (hne : digits ≠ []) (hdigits : IsDigits digits)
    {exponent : Int} (h : exponent < 0) :
    ∃ w f, positional false digits exponent = w ++ '.' :: f ∧ w ≠ [] ∧ IsDigits w ∧ IsDigits f ∧
      f.length = exponent.natAbs ∧ f.getLast? = digits.getLast? := by
  unfold positional
  dsimp only
  rw [if_neg (by omega)]
  split
  · next hplaces =>
    refine ⟨_, _, rfl, ?_, fun c hc => hdigits c (List.mem_of_mem_take hc),
      fun c hc => hdigits c (List.mem_of_mem_drop hc), ?_, ?_⟩
    · intro hnil
      have := congrArg List.length hnil
      rw [List.length_take, List.length_nil] at this
      omega
    · rw [List.length_drop]
      omega
    · rw [List.getLast?_drop, if_neg (by omega)]
  · refine ⟨['0'], List.replicate (exponent.natAbs - digits.length) '0' ++ digits, rfl, by decide,
      isDigits_zeros 1,
      isDigits_append (isDigits_zeros _) hdigits, ?_, ?_⟩
    · rw [List.length_append, List.length_replicate]
      omega
    · rw [List.getLast?_append_of_ne_nil _ hne]

theorem positional_of_nonneg (digits : List Char) {exponent : Int} (h : 0 ≤ exponent) :
    positional false digits exponent = digits ++ List.replicate exponent.natAbs '0' := by
  unfold positional
  dsimp only
  rw [if_pos h, if_neg Bool.false_ne_true, List.append_nil]

theorem isPlain_positional {digits : List Char} (hne : digits ≠ []) (hdigits : IsDigits digits)
    (exponent : Int) : IsPlain (positional false digits exponent) := by
  by_cases h : 0 ≤ exponent
  · rw [positional_of_nonneg digits h]
    refine .whole ?_ (isDigits_append hdigits (isDigits_zeros _))
    exact List.append_ne_nil_of_left_ne_nil hne _
  · obtain ⟨w, f, heq, hw, hwdigits, hfdigits, hlength, -⟩ :=
      exists_positional_of_neg hne hdigits (Int.not_le.1 h)
    rw [heq]
    refine .point hw hwdigits ?_ hfdigits
    rintro rfl
    rw [List.length_nil] at hlength
    omega

theorem isPlain_magnitude (b : Binary) : IsPlain (Layout.plain.magnitude b) := by
  unfold Layout.magnitude
  split
  · exact isPlain_positional (by decide) (isDigits_zeros 1) 0
  · exact isPlain_positional Nat.toDigits_ne_nil (isDigits_toDigits _) _

/-- The texts of doubles: plain numerals, perhaps after a minus, and three words. -/
theorem display_cases (v : Float) :
    (∃ s, IsPlain s ∧ (display v).toList = s) ∨ (∃ s, IsPlain s ∧ (display v).toList = '-' :: s) ∨
      display v ∈ ["inf", "-inf", "NaN"] := by
  unfold display
  split
  · next b _ =>
    rw [Layout.finite, String.toList_ofList]
    by_cases hnegative : b.negative = true
    · rw [if_pos hnegative]
      exact .inr (.inl ⟨_, isPlain_magnitude b, rfl⟩)
    · rw [if_neg hnegative]
      exact .inl ⟨_, isPlain_magnitude b, rfl⟩
  · refine .inr (.inr ?_)
    split
    · decide
    · split <;> decide

/-! ## Number literals -/

theorem isWordChar_of_isDigit {c : Char} (h : Text.isDigit c = true) : isWordChar c = true := by
  rw [isWordChar, Text.isAlphanumeric, h, Bool.or_true, Bool.true_or]

theorem isRun_digits {s : List Char} (hne : s ≠ []) (hs : IsDigits s) : IsRun s := by
  cases s with
  | nil => exact absurd rfl hne
  | cons c s =>
    refine (isRun_singleton (isWordChar_of_isDigit (hs c (List.mem_cons_self ..)))).append ?_
    exact fun d hd => isWordChar_of_isDigit (hs d (List.mem_cons_of_mem _ hd))

/-- A point goes on with a number when a digit follows it. -/
theorem IsRun.point {s : List Char} {c : Char} (hs : IsRun s) (hne : s ≠ []) (hdigits : IsDigits s)
    (hc : Text.isDigit c = true) : IsRun (s ++ ['.', c]) := by
  intro t
  obtain ⟨htokens, hmode⟩ := hs ('.' :: c :: t)
  have hhead : s.head?.any Text.isDigit = true := by
    cases s with
    | nil => exact absurd rfl hne
    | cons d s => exact hdigits d (List.mem_cons_self ..)
  have hpoint : step (.word s) '.' = (.point s, []) := by
    rw [step, if_neg (by decide), if_pos ⟨rfl, hhead⟩]
  have hdigit : step (.point s) c = (.word (s ++ ['.', c]), []) := by
    rw [step, if_pos hc]
  rw [List.append_assoc]
  show tokens .between (s ++ '.' :: c :: t) = _ ∧ modeAfter .between (s ++ '.' :: c :: t) = _
  rw [htokens, hmode, tokens, tokens, modeAfter, modeAfter, hpoint, hdigit]
  exact ⟨rfl, rfl⟩

theorem IsPlain.isRun {s : List Char} (h : IsPlain s) : IsRun s := by
  cases h with
  | whole hne hs => exact isRun_digits hne hs
  | @point w f hne hw hfne hf =>
    cases f with
    | nil => exact absurd rfl hfne
    | cons c f =>
      have hpoint := (isRun_digits hne hw).point hne hw (hf c (List.mem_cons_self ..))
      have hrun := hpoint.append fun d hd => isWordChar_of_isDigit (hf d (List.mem_cons_of_mem _ hd))
      rw [List.append_assoc] at hrun
      exact hrun

/-- A number literal is one word, perhaps after a minus. -/
theorem floatLiteral_cases (v : Float) :
    IsRun (floatLiteral v).toList ∨ ∃ w, IsRun w.toList ∧ floatLiteral v = "-" ++ w := by
  have hf {s : List Char} (h : IsRun s) : IsRun (s ++ "f".toList) :=
    h.append (List.all_eq_true.1 (by decide))
  rw [floatLiteral]
  rcases display_cases (literalValue v) with ⟨s, hs, heq⟩ | ⟨s, hs, heq⟩ | hmem
  · rw [String.toList_append, heq]
    exact .inl (hf hs.isRun)
  · refine .inr ⟨String.ofList s ++ "f", ?_, ?_⟩
    · rw [String.toList_append, String.toList_ofList]
      exact hf hs.isRun
    · rw [← String.append_assoc, String.append_left_inj, ← String.toList_inj, heq,
        String.toList_append, String.toList_ofList, String.toList_ofList]
      rfl
  · simp only [List.mem_cons, List.not_mem_nil, or_false] at hmem
    rcases hmem with h | h | h
    · rw [h]
      exact .inl (isRun_of_isWord (by decide))
    · rw [h]
      exact .inr ⟨"inff", isRun_of_isWord (by decide), by decide⟩
    · rw [h]
      exact .inl (isRun_of_isWord (by decide))

theorem ends_minus : Ends "-" [.mark '-'] := by decide

/-- The tokens of a number literal. -/
def numberTokens (v : Float) : List Token :=
  tokensOf (floatLiteral v)

theorem numberTokens_cases (v : Float) :
    numberTokens v = [.word (floatLiteral v)] ∨
      ∃ w, numberTokens v = [.mark '-', .word w] ∧ floatLiteral v = "-" ++ w := by
  rcases floatLiteral_cases v with hrun | ⟨w, hrun, heq⟩
  · exact .inl hrun.reads.1
  · refine .inr ⟨w, ?_, heq⟩
    rw [numberTokens, heq]
    exact (ends_minus.append_reads hrun.reads).1

theorem reads_floatLiteral (v : Float) : Reads (floatLiteral v) (numberTokens v) := by
  refine ⟨rfl, ?_⟩
  rcases floatLiteral_cases v with hrun | ⟨w, hrun, heq⟩
  · exact hrun.reads.2
  · rw [heq]
    exact (ends_minus.append_reads hrun.reads).2

/-- The tokens of a number give back its text, and what follows them. -/
theorem numberTokens_append_inj {v w : Float} {ts us : List Token}
    (h : numberTokens v ++ ts = numberTokens w ++ us) :
    floatLiteral v = floatLiteral w ∧ ts = us := by
  rcases numberTokens_cases v with hv | ⟨s, hv, hs⟩ <;>
    rcases numberTokens_cases w with hw | ⟨s', hw, hs'⟩ <;> rw [hv, hw] at h
  · obtain ⟨hword, hrest⟩ := List.cons.inj h
    exact ⟨Token.word.inj hword, hrest⟩
  · cases (List.cons.inj h).1
  · cases (List.cons.inj h).1
  · obtain ⟨hword, hrest⟩ := List.cons.inj (List.cons.inj h).2
    rw [hs, hs', Token.word.inj hword]
    exact ⟨rfl, hrest⟩

/-- Doubles that compare as equal are written alike. -/
theorem floatLiteral_eq_of_beq {v w : Float} (h : (v == w) = true) :
    floatLiteral v = floatLiteral w := by
  have hzeros : floatLiteral 0 = floatLiteral (-0) := by decide +kernel
  obtain ⟨-, -, rfl | ⟨rfl, rfl⟩ | ⟨rfl, rfl⟩⟩ := Float.beq_iff_ne_nan_and_eq.1 h
  · rfl
  · exact hzeros
  · exact hzeros.symm

/-- A size is a number and a word after a point. -/
theorem reads_sizeLiteral (v : Float) :
    Reads (sizeLiteral v) (numberTokens v ++ [.mark '.', .word "dp"]) := by
  have hdp {w : String} (h : IsRun w.toList) :
      Reads (w ++ ".dp") [.word w, .mark '.', .word "dp"] :=
    (h.append_member (reads_word (s := "dp") (by decide)) (by decide)).1
  rw [sizeLiteral]
  rcases floatLiteral_cases v with hrun | ⟨w, hrun, heq⟩
  · rw [numberTokens, hrun.reads.1]
    exact hdp hrun
  · rw [numberTokens, heq, (ends_minus.append_reads hrun.reads).1, String.append_assoc]
    exact ends_minus.append_reads (hdp hrun)

end VectorIcon.Kotlin
