import Mathlib
import VectorIcon.Proofs.Number.Munch

/-!
# Exact values of numerals

`Numeral.value` is the number that a numeral writes, before any rounding. Zeros at the end of the digits
after the point add nothing to it, so they can be left out (`Numeral.value_dropEndWhile`).
-/

namespace VectorIcon.Number

open Text

/-- The number that a numeral writes. -/
def Numeral.value (n : Numeral) : ℚ :=
  (if n.negative then -1 else 1) * n.digits * 10 ^ n.scale

/-- The number that a text writes, when it is one numeral. -/
def exactValue? (s : List Char) : Option ℚ :=
  match scan? s with
  | some (n, []) => some n.value
  | _ => none

theorem exactValue?_of_isDecimal {s w f : List Char} (h : IsDecimal s w f) :
    exactValue? s = some (Numeral.value ⟨false, w, f, 0⟩) := by
  have hspells := Spells.mk .none h .none
  rw [List.nil_append, List.append_nil] at hspells
  rw [exactValue?, scan?_of_spells hspells]

/-! ## Digits -/

theorem decimalNumber_append (s t : List Char) :
    decimalNumber (s ++ t) = 10 ^ t.length * decimalNumber s + decimalNumber t := by
  have h := Nat.ofDigitChars_append (b := 10) (l := s) (m := t) 0
  rw [Nat.ofDigitChars_eq_ofDigitChars_zero (l := t)] at h
  exact h

theorem decimalNumber_zeros (n : Nat) : decimalNumber (List.replicate n '0') = 0 :=
  Nat.ofDigitChars_replicate_zero.trans (Nat.mul_zero _)

/-- A run of digits is what it is without the zeros at its end, and these. -/
theorem exists_zeros (s : List Char) :
    ∃ k, s = dropEndWhile (· == '0') s ++ List.replicate k '0' := by
  refine ⟨(s.reverse.takeWhile (· == '0')).length, ?_⟩
  have hzeros : (s.reverse.takeWhile (· == '0')).reverse =
      List.replicate (s.reverse.takeWhile (· == '0')).length '0' := by
    rw [List.eq_replicate_iff]
    refine ⟨List.length_reverse, fun c hc => ?_⟩
    have hzero := List.mem_takeWhile_imp (List.mem_reverse.1 hc)
    exact beq_iff_eq.1 hzero
  rw [dropEndWhile, ← hzeros, ← List.reverse_append, List.takeWhile_append_dropWhile,
    List.reverse_reverse]

theorem isDigits_toDigits (n : Nat) : IsDigits (Nat.toDigits 10 n) := by
  intro c hc
  have hdigit := Nat.isDigit_of_mem_toDigits (by decide) (by decide) hc
  unfold Char.isDigit at hdigit
  simpa [isDigit, Char.le_def] using hdigit

theorem decimalNumber_toDigits (n : Nat) : decimalNumber (Nat.toDigits 10 n) = n :=
  Nat.ofDigitChars_ten_toDigits

/-! ## Numerals -/

theorem Numeral.value_zeros (n : Numeral) (k : Nat) :
    Numeral.value { n with fraction := n.fraction ++ List.replicate k '0' } = n.value := by
  have hdigits : Numeral.digits { n with fraction := n.fraction ++ List.replicate k '0' } =
      10 ^ k * n.digits := by
    unfold Numeral.digits
    rw [← List.append_assoc, decimalNumber_append, decimalNumber_zeros, List.length_replicate,
      Nat.add_zero]
  have hscale : Numeral.scale { n with fraction := n.fraction ++ List.replicate k '0' } =
      n.scale - k := by
    simp only [Numeral.scale, List.length_append, List.length_replicate]
    omega
  have hten : (10 : ℚ) ≠ 0 := by norm_num
  have hpow : (10 : ℚ) ^ k * 10 ^ (n.scale - k) = 10 ^ n.scale := by
    rw [zpow_sub₀ hten, zpow_natCast, mul_div_cancel₀ _ (pow_ne_zero k hten)]
  unfold Numeral.value
  rw [hdigits, hscale, Nat.cast_mul, Nat.cast_pow, Nat.cast_ofNat, ← hpow]
  ring

theorem Numeral.value_dropEndWhile (negative : Bool) (w f : List Char) (e : Int) :
    Numeral.value ⟨negative, w, dropEndWhile (· == '0') f, e⟩ = Numeral.value ⟨negative, w, f, e⟩ := by
  obtain ⟨k, hf⟩ := exists_zeros f
  have hvalue := Numeral.value_zeros ⟨negative, w, dropEndWhile (· == '0') f, e⟩ k
  rw [← hvalue]
  dsimp only
  rw [← hf]

/-- Digits before a point and after it. -/
theorem Numeral.value_point (w f : List Char) :
    Numeral.value ⟨false, w, f, 0⟩ = decimalNumber (w ++ f) / 10 ^ f.length := by
  have hscale : Numeral.scale ⟨false, w, f, 0⟩ = -(f.length : Int) := Int.zero_sub _
  unfold Numeral.value
  rw [hscale, zpow_neg, zpow_natCast, if_neg Bool.false_ne_true, one_mul, div_eq_mul_inv]
  rfl

end VectorIcon.Number
