import VectorIcon.Proofs.Kotlin.Number
import VectorIcon.Proofs.Number.Rounding

/-!
# Number literals

The double that stands for a number of millionths has that number in its interval, so that it is written with
at most six places (`isLiteral_of_isFinite`). This holds as long as the millionths are a double: from `1.8e302`
on they are an infinity, and that is what is written (`floatLiteral_of_overflow`).
-/

namespace VectorIcon.Kotlin

open Number

variable {v : Float} {n : Nat} {k : Int}

/-! ## Short numerals -/

/-- Digits, and perhaps a point with one to six digits after it, of which the last is no zero. -/
inductive IsShort : List Char → Prop
  | whole {w} : w ≠ [] → IsDigits w → IsShort w
  | point {w f} : w ≠ [] → IsDigits w → f ≠ [] → IsDigits f → f.length ≤ 6 → f.getLast? ≠ some '0' →
      IsShort (w ++ '.' :: f)

/-- A number literal: perhaps a minus, a short numeral, and the letter; and no negative zero. -/
structure IsLiteral (text : String) : Prop where
  shape : ∃ s, IsShort s ∧ (text.toList = s ++ ['f'] ∨ text.toList = '-' :: s ++ ['f'])
  ne_negative_zero : text ≠ "-0f"

theorem getLast?_toDigits (n : Nat) : (Nat.toDigits 10 n).getLast? = some (Nat.digitChar (n % 10)) := by
  rw [Nat.toDigits_eq_if (by decide)]
  split
  · next hlt => rw [Nat.mod_eq_of_lt hlt, List.getLast?_singleton]
  · exact List.getLast?_concat

theorem toDigits_inj {m n : Nat} (h : Nat.toDigits 10 m = Nat.toDigits 10 n) : m = n := by
  rw [← Nat.ofDigitChars_ten_toDigits (n := m), h, Nat.ofDigitChars_ten_toDigits]

theorem getLast?_toDigits_ne (h : n % 10 ≠ 0) : (Nat.toDigits 10 n).getLast? ≠ some '0' := by
  have hdigits : ∀ d < 10, d ≠ 0 → Nat.digitChar d ≠ '0' := by decide
  rw [getLast?_toDigits]
  intro heq
  exact hdigits (n % 10) (Nat.mod_lt n (by decide)) h (Option.some.inj heq)

/-- At most six places, of which the last is no zero, make a short numeral that is not zero. -/
theorem isShort_positional (hn : n ≠ 0) (hk : -6 ≤ k) (hdigit : k < 0 → n % 10 ≠ 0) :
    IsShort (positional false (Nat.toDigits 10 n) k) ∧ positional false (Nat.toDigits 10 n) k ≠ ['0'] := by
  have hdigits := isDigits_toDigits n
  have hne : Nat.toDigits 10 n ≠ [] := Nat.toDigits_ne_nil
  by_cases hwhole : 0 ≤ k
  · rw [positional_of_nonneg _ hwhole]
    refine ⟨.whole ?_ (isDigits_append hdigits (isDigits_zeros _)), fun hzero => hn ?_⟩
    · exact List.append_ne_nil_of_left_ne_nil hne _
    · have hlength := congrArg List.length hzero
      have hpos : 0 < (Nat.toDigits 10 n).length := List.length_pos_iff.2 hne
      rw [List.length_append, List.length_replicate, List.length_singleton] at hlength
      have hnone : k.natAbs = 0 := by omega
      rw [hnone, List.replicate_zero, List.append_nil] at hzero
      exact toDigits_inj (hzero.trans (Nat.toDigits_zero 10).symm)
  · obtain ⟨w, f, heq, hw, hwdigits, hfdigits, hlength, hlast⟩ :=
      exists_positional_of_neg hne hdigits (Int.not_le.1 hwhole)
    rw [heq]
    refine ⟨.point hw hwdigits ?_ hfdigits (by omega) ?_, fun hzero => ?_⟩
    · rintro rfl
      rw [List.length_nil] at hlength
      omega
    · rw [hlast]
      exact getLast?_toDigits_ne (hdigit (by omega))
    · have hpoint : '.' ∈ ['0'] := hzero ▸ List.mem_append_right _ (List.mem_cons_self ..)
      exact absurd hpoint (by decide)

theorem isShort_zero : IsShort ['0'] :=
  .whole (by decide) (isDigits_zeros 1)

theorem IsShort.isPlain {s : List Char} (h : IsShort s) : IsPlain s := by
  cases h with
  | whole hne hw => exact .whole hne hw
  | point hne hw hne' hf _ _ => exact .point hne hw hne' hf

/-- A double with a multiple of a millionth in its interval is written as a short numeral, perhaps after a
minus, that is not zero. -/
theorem isLiteral_display {b : Binary} (h : Binary.ofFloat? v = some b) (hmantissa : b.mantissa ≠ 0) {N : Nat}
    (hN : (Interval.ofBinary b).Contains (N * 10 ^ (-6 : Int))) : IsLiteral (display v ++ "f") := by
  obtain ⟨hn, hk, hdigit⟩ := shortest_places Layout.plain.tie (Binary.isDouble_of_ofFloat? h) hmantissa hN
  obtain ⟨hshort, hzero⟩ := isShort_positional hn hk hdigit
  have hmagnitude : Layout.plain.magnitude b =
      positional false (Nat.toDigits 10 (shortest Layout.plain.tie b).1) (shortest Layout.plain.tie b).2 := by
    unfold Layout.magnitude
    rw [if_neg hmantissa]
    rfl
  have hdisplay : (display v ++ "f").toList =
      (if b.negative then '-' :: Layout.plain.magnitude b else Layout.plain.magnitude b) ++ ['f'] := by
    unfold display
    rw [h, String.toList_append]
    dsimp only
    rw [Layout.finite, String.toList_ofList]
    rfl
  rw [← hmagnitude] at hshort hzero
  refine ⟨⟨_, hshort, ?_⟩, fun heq => ?_⟩
  · rw [hdisplay]
    split
    · exact .inr rfl
    · exact .inl rfl
  · rw [heq] at hdisplay
    split at hdisplay
    · exact hzero (List.append_cancel_right (List.cons.inj hdisplay).2).symm
    · have hminus : '-' ∈ Layout.plain.magnitude b := by
        have hzero' : ['-', '0'] = Layout.plain.magnitude b := List.append_cancel_right hdisplay
        rw [← hzero']
        exact List.mem_cons_self ..
      rcases hshort.isPlain.isDigit_or hminus with hdigit | hpoint
      · exact absurd hdigit (by decide)
      · exact absurd hpoint (by decide)

/-! ## Rounding to six places -/

/-- Millionths as a double, or the whole number next to it. -/
def settle (millionths : Float) : Float :=
  let rounded := roundHalfAway millionths / 1e6
  let nearest := roundHalfAway rounded
  if (rounded - nearest).abs < 1e-9 then nearest else rounded

theorem floatLiteral_of_isFinite (h : isFinite v = true) :
    floatLiteral v = display (if settle (v * 1e6) == 0 then 0 else settle (v * 1e6)) ++ "f" := by
  unfold floatLiteral literalValue
  rw [if_pos h]
  rfl

theorem floatLiteral_of_not_isFinite (h : isFinite v = false) : floatLiteral v = "0f" := by
  unfold floatLiteral literalValue
  rw [h, if_neg Bool.false_ne_true]
  decide +kernel

/-- The parts of a million. -/
theorem ofFloat?_million : Binary.ofFloat? 1e6 = some ⟨false, 15625 * 2 ^ 39, -33⟩ := by
  decide +kernel

theorem magnitude_million : Binary.magnitude ⟨false, 15625 * 2 ^ 39, -33⟩ = 10 ^ 6 := by
  rw [Binary.magnitude]
  norm_num

theorem magnitude_lt {b : Binary} (hb : b.IsDouble) : b.magnitude < 2 ^ (1024 : Int) := by
  have hpow : (2 : ℚ) ^ b.exponent ≤ 2 ^ (971 : Int) := zpow_le_zpow_right₀ one_le_two hb.exponent_le
  have hmantissa : (b.mantissa : ℚ) < 2 ^ 53 := by exact_mod_cast hb.mantissa_lt
  calc (b.mantissa : ℚ) * 2 ^ b.exponent ≤ b.mantissa * 2 ^ (971 : Int) :=
        mul_le_mul_of_nonneg_left hpow (Nat.cast_nonneg _)
    _ < 2 ^ 53 * 2 ^ (971 : Int) := mul_lt_mul_of_pos_right hmantissa (by positivity)
    _ = 2 ^ (1024 : Int) := by rw [← zpow_natCast, ← zpow_add₀ two_ne_zero]; rfl

theorem mul_ten_pow (x : ℚ) : x * 10 ^ (-6 : Int) = x / 10 ^ 6 := by
  rw [zpow_neg, div_eq_mul_inv]
  rfl

/-- What finite millionths are settled to has a multiple of a millionth in its interval, or is zero. -/
theorem exists_settle {w : Float} (h : isFinite w = true) : ∃ b, Binary.ofFloat? (settle w) = some b ∧
    (b.mantissa ≠ 0 → ∃ N : Nat, (Interval.ofBinary b).Contains (N * 10 ^ (-6 : Int))) := by
  obtain ⟨product, hproduct⟩ := exists_ofFloat? h
  obtain ⟨whole, hwhole, hvalue⟩ := Binary.exists_ofFloat?_roundHalfAway hproduct
  have hlarge : whole.magnitude / Binary.magnitude ⟨false, 15625 * 2 ^ 39, -33⟩ < limit := by
    have hlt := magnitude_lt (Binary.isDouble_of_ofFloat? hwhole)
    have hpow : (2 : ℚ) ^ (1024 : Int) = 2 ^ (1023 : Int) * 2 := zpow_add_one₀ two_ne_zero 1023
    rw [magnitude_million, div_lt_iff₀ (by norm_num)]
    rw [hpow] at hlt
    refine hlt.trans_le (le_trans ?_ (mul_le_mul_of_nonneg_right le_limit (by norm_num)))
    exact mul_le_mul_of_nonneg_left (by norm_num) (by positivity)
  obtain ⟨rounded, hrounded, hcontains⟩ := exists_div hwhole ofFloat?_million (by norm_num) hlarge
  obtain ⟨nearest, hnearest, hnearestValue⟩ := Binary.exists_ofFloat?_roundHalfAway hrounded
  rw [magnitude_million, hvalue] at hcontains
  unfold settle
  dsimp only
  split
  · refine ⟨nearest, hnearest, fun hne => ⟨rounded.roundMagnitude * 10 ^ 6, ?_⟩⟩
    have hself := Interval.contains_magnitude hne
    rw [hnearestValue] at hself
    rw [Nat.cast_mul, mul_ten_pow]
    convert hself using 1
    push_cast
    exact mul_div_cancel_right₀ _ (by norm_num)
  · refine ⟨rounded, hrounded, fun hne => ⟨product.roundMagnitude, ?_⟩⟩
    rw [mul_ten_pow]
    exact hcontains hne

theorem isLiteral_zero : IsLiteral "0f" :=
  ⟨⟨['0'], isShort_zero, .inl rfl⟩, by decide⟩

/-- A double whose millionths are finite is written as a literal. -/
theorem isLiteral_of_isFinite (h : isFinite v = true) (hproduct : isFinite (v * 1e6) = true) :
    IsLiteral (floatLiteral v) := by
  obtain ⟨b, hb, hplaces⟩ := exists_settle hproduct
  rw [floatLiteral_of_isFinite h]
  by_cases hzero : (settle (v * 1e6) == 0) = true
  · rw [if_pos hzero]
    exact isLiteral_zero
  · have hmantissa : b.mantissa ≠ 0 := fun hmantissa => hzero (beq_zero_of_ofFloat? hb hmantissa)
    obtain ⟨N, hN⟩ := hplaces hmantissa
    rw [if_neg hzero]
    exact isLiteral_display hb hmantissa hN

/-- Millionths that are too large for a double are an infinity, and so is what is written. -/
theorem floatLiteral_of_overflow (h : isFinite v = true) (hproduct : isFinite (v * 1e6) = false) :
    floatLiteral v = "inff" ∨ floatLiteral v = "-inff" := by
  rw [floatLiteral_of_isFinite h]
  obtain ⟨b, hb⟩ := exists_ofFloat? h
  rcases isFinite_mul_or hb ofFloat?_million with hfinite | ⟨s, hs⟩
  · rw [hproduct] at hfinite
    cases hfinite
  · rw [hs]
    cases s with
    | positive => exact .inl (by decide +kernel)
    | negative => exact .inr (by decide +kernel)

end VectorIcon.Kotlin
