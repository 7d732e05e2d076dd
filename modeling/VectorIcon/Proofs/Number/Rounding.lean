import Mathlib
import VectorIcon.Proofs.Number.Shortest

/-!
# Rounding to doubles

A number below a limit is rounded to the double nearest to it, which therefore has it in its interval; from the
limit on it is rounded to an infinity (`IsRounding.exists_ofFloat?`, `IsRounding.ofFloat?_eq_none`). The digits
that are cut off before are kept as one bit and a mark for whatever follows it (`Leaves`), which is enough to
round once, at the end. Quotients and products of doubles are rounded so (`exists_div`, `isFinite_mul_iff`).
-/

namespace VectorIcon.Number

open Float.Model UnpackedFloat

variable {em : ExtendedMantissa} {s : Sign} {acc : Accuracy} {m n : Nat} {e : Int} {x : ℚ}

/-! ## Cut mantissas -/

/-- A number is a mantissa, a half when the next bit says so, and less than a half, which is there when the
mark says so. -/
def Leaves (em : ExtendedMantissa) (x : ℚ) : Prop :=
  ∃ rest : ℚ, x = em.mantissa + (if em.roundBit then 1 / 2 else 0) + rest ∧
    0 ≤ rest ∧ rest < 1 / 2 ∧ (em.stickyBit = false ↔ rest = 0)

theorem Leaves.shiftRightOne (h : Leaves em x) : Leaves em.shiftRightOne (x / 2) := by
  obtain ⟨rest, hx, hnonneg, hlt, hsticky⟩ := h
  obtain ⟨m, round, sticky⟩ := em
  dsimp only at hx hsticky
  have hparts : (m : ℚ) = (m / 2 : Nat) * 2 + (m % 2 : Nat) := by
    exact_mod_cast (Nat.div_add_mod' m 2).symm
  refine ⟨((if round then 1 / 2 else 0) + rest) / 2, ?_, ?_, ?_, ?_⟩
  · have hbit : ((m % 2 : Nat) : ℚ) / 2 = if m % 2 != 0 then 1 / 2 else 0 := by
      rcases Nat.mod_two_eq_zero_or_one m with hm | hm <;> rw [hm] <;> norm_num
    show x / 2 = (m / 2 : Nat) + (if m % 2 != 0 then 1 / 2 else 0) + _
    rw [hx, ← hbit]
    linarith
  · split <;> linarith
  · split <;> linarith
  · show (round || sticky) = false ↔ _
    rw [Bool.or_eq_false_iff, hsticky]
    constructor
    · rintro ⟨rfl, rfl⟩
      norm_num
    · intro hzero
      split at hzero
      · linarith
      · next hround => exact ⟨by simpa using hround, by linarith⟩

theorem Leaves.shiftRight (h : Leaves em x) (k : Nat) : Leaves (em >>> k) (x / 2 ^ k) := by
  induction k with
  | zero =>
    rw [pow_zero, div_one]
    exact h
  | succ k ih =>
    rw [pow_succ, ← div_div]
    exact ih.shiftRightOne

theorem Leaves.mantissa_le (h : Leaves em x) : (em.mantissa : ℚ) ≤ x := by
  obtain ⟨rest, hx, hnonneg, -, -⟩ := h
  rw [hx]
  split <;> linarith

theorem Leaves.lt_mantissa (h : Leaves em x) : x < em.mantissa + 1 := by
  obtain ⟨rest, hx, -, hlt, -⟩ := h
  rw [hx]
  split <;> linarith

/-- A whole number is nearest to a number, and even when another one is as near. -/
def IsNearest (n : Nat) (x : ℚ) : Prop :=
  if n % 2 = 0 then n - 1 / 2 ≤ x ∧ x ≤ n + 1 / 2 else n - 1 / 2 < x ∧ x < n + 1 / 2

theorem Leaves.isNearest (h : Leaves em x) : IsNearest em.roundedMantissa x := by
  obtain ⟨rest, hx, hnonneg, hlt, hsticky⟩ := h
  obtain ⟨m, round, sticky⟩ := em
  dsimp only at hx hsticky
  unfold IsNearest
  cases round with
  | false =>
    have hround : ExtendedMantissa.roundedMantissa ⟨m, false, sticky⟩ = m := by cases sticky <;> rfl
    rw [if_neg Bool.false_ne_true, add_zero] at hx
    rw [hround, hx]
    split
    · exact ⟨by linarith, by linarith⟩
    · exact ⟨by linarith, by linarith⟩
  | true =>
    rw [if_pos rfl] at hx
    cases sticky with
    | false =>
      have hround : ExtendedMantissa.roundedMantissa ⟨m, true, false⟩ = m + m % 2 := rfl
      have heven : (m + m % 2) % 2 = 0 := by omega
      have hrest := hsticky.1 rfl
      rw [hround, if_pos heven, hx, hrest]
      rcases Nat.mod_two_eq_zero_or_one m with hm | hm <;> rw [hm] <;> push_cast <;>
        exact ⟨by linarith, by linarith⟩
    | true =>
      have hround : ExtendedMantissa.roundedMantissa ⟨m, true, true⟩ = m + 1 := rfl
      have hrest : 0 < rest := lt_of_le_of_ne hnonneg fun hzero => Bool.noConfusion (hsticky.2 hzero.symm)
      rw [hround, hx]
      push_cast
      split
      · exact ⟨by linarith, by linarith⟩
      · exact ⟨by linarith, by linarith⟩

theorem roundedMantissa_cases (em : ExtendedMantissa) :
    em.roundedMantissa = em.mantissa ∨ em.roundedMantissa = em.mantissa + 1 := by
  obtain ⟨m, round, sticky⟩ := em
  cases round with
  | false => cases sticky <;> exact .inl rfl
  | true =>
    cases sticky with
    | false =>
      show m + m % 2 = m ∨ m + m % 2 = m + 1
      omega
    | true => exact .inr rfl

theorem mantissa_shiftRight (em : ExtendedMantissa) (k : Nat) :
    (em >>> k).mantissa = em.mantissa / 2 ^ k := by
  induction k with
  | zero => exact (Nat.div_one _).symm
  | succ k ih =>
    show (em >>> k).mantissa / 2 = _
    rw [ih, Nat.div_div_eq_div_mul, Nat.pow_succ]

/-! ## Rounding to a double -/

theorem mantissa_ofMantissaAndAccuracy (m : Nat) (acc : Accuracy) :
    (ExtendedMantissa.ofMantissaAndAccuracy m acc).mantissa = m := by
  cases acc with
  | exact => rfl
  | inexact o => cases o <;> rfl

/-- The exponent of a double for a mantissa and an exponent. -/
def target (m : Nat) (e : Int) : Int :=
  max (m.log2 + e - 52) (-1074)

theorem targetExponent_eq (m : Nat) (e : Int) :
    Format.binary64.targetExponent (totalExponent m e) = target m e := by
  have hleast : Format.binary64.minExponent = -1074 := by decide
  have hbits : Format.binary64.mantissaBits = 53 := by decide
  rw [Format.targetExponent, hleast, hbits, totalExponent, target]
  congr 1
  push_cast
  ring

theorem shiftToTargetExponent_eq (m : Nat) (e : Int) (acc : Accuracy) :
    shiftToTargetExponent .binary64 m e acc =
      (ExtendedMantissa.ofMantissaAndAccuracy m acc >>> (target m e - e).toNat,
        e + (target m e - e).toNat) := by
  rw [shiftToTargetExponent, targetExponent_eq, shiftToExponent]

theorem contains_mul_iff (b : Binary) (x : ℚ) :
    (Interval.ofBinary b).Contains (x * 2 ^ b.exponent) ↔
      if b.mantissa % 2 = 0 then ((Interval.ofBinary b).low : ℚ) ≤ 4 * x ∧ 4 * x ≤ 4 * b.mantissa + 2
      else ((Interval.ofBinary b).low : ℚ) < 4 * x ∧ 4 * x < 4 * b.mantissa + 2 := by
  have hunit : (0 : ℚ) < 2 ^ (b.exponent - 2) := by positivity
  have hpow : x * 2 ^ b.exponent = 4 * x * 2 ^ (b.exponent - 2) := by
    rw [zpow_sub₀ two_ne_zero]
    ring
  have hhigh : ((4 * b.mantissa + 2 : Nat) : ℚ) = 4 * b.mantissa + 2 := by push_cast; rfl
  rw [hpow, ← hhigh]
  unfold Interval.Contains
  show (if (b.mantissa % 2 == 0) = true then
      (_ : ℚ) * 2 ^ (b.exponent - 2) ≤ _ ∧ _ ≤ ((4 * b.mantissa + 2 : Nat) : ℚ) * 2 ^ (b.exponent - 2)
    else (_ : ℚ) * 2 ^ (b.exponent - 2) < _ ∧ _ < ((4 * b.mantissa + 2 : Nat) : ℚ) * 2 ^ (b.exponent - 2)) ↔ _
  simp only [mul_le_mul_iff_left₀ hunit, mul_lt_mul_iff_left₀ hunit, beq_iff_eq]

/-- A number that is nearest at the exponent of a double is in the interval of that double. -/
theorem contains_of_isNearest {b : Binary} (hb : b.mantissa ≠ 0) (h : IsNearest b.mantissa x)
    (hpower : b.mantissa = 2 ^ 52 → -1074 < b.exponent → (b.mantissa : ℚ) ≤ x) :
    (Interval.ofBinary b).Contains (x * 2 ^ b.exponent) := by
  rw [contains_mul_iff]
  unfold IsNearest at h
  by_cases hmantissa : b.mantissa = 2 ^ 52 ∧ -1074 < b.exponent
  · have hlow : ((Interval.ofBinary b).low : ℚ) < 4 * b.mantissa := by
      exact_mod_cast (Interval.isAround_ofBinary hb).1
    have hle := hpower hmantissa.1 hmantissa.2
    split
    · next heven =>
      rw [if_pos heven] at h
      exact ⟨by linarith, by linarith [h.2]⟩
    · next hodd =>
      rw [if_neg hodd] at h
      exact ⟨by linarith, by linarith [h.2]⟩
  · have hlow : ((Interval.ofBinary b).low : ℚ) = 4 * b.mantissa - 2 := by
      have hnat : (Interval.ofBinary b).low + 2 = 4 * b.mantissa := by
        unfold Interval.ofBinary
        dsimp only
        rw [leadingBit_eq, if_neg hmantissa]
        omega
      have hcast := congrArg (Nat.cast (R := ℚ)) hnat
      push_cast at hcast
      linarith
    split
    · next heven =>
      rw [if_pos heven] at h
      exact ⟨by linarith [h.1], by linarith [h.2]⟩
    · next hodd =>
      rw [if_neg hodd] at h
      exact ⟨by linarith [h.1], by linarith [h.2]⟩

/-- What rounds up to twice the least full mantissa is in the interval of the next double. -/
theorem contains_of_carry (negative : Bool) (he : -1074 ≤ e) (h : IsNearest (2 ^ 53) x) (hlt : x < 2 ^ 53) :
    (Interval.ofBinary ⟨negative, 2 ^ 52, e + 1⟩).Contains (x * 2 ^ e) := by
  have hhalf : x * 2 ^ e = x / 2 * 2 ^ (e + 1) := by
    rw [zpow_add_one₀ two_ne_zero]
    ring
  have hlow : (Interval.ofBinary ⟨negative, 2 ^ 52, e + 1⟩).low = 2 ^ 54 - 1 := by
    unfold Interval.ofBinary
    dsimp only
    rw [leadingBit_eq, if_pos ⟨rfl, by omega⟩]
    norm_num
  have hge : (2 : ℚ) ^ 53 - 1 / 2 ≤ x := by
    unfold IsNearest at h
    rw [if_pos (by decide)] at h
    exact_mod_cast h.1
  rw [hhalf]
  refine (contains_mul_iff ⟨negative, 2 ^ 52, e + 1⟩ (x / 2)).2 ?_
  have heven : 2 ^ 52 % 2 = 0 := by norm_num
  rw [if_pos heven, hlow]
  norm_num at hge hlt ⊢
  constructor <;> linarith

/-- A cut mantissa has at most 53 bits, and fewer only at the least exponent. -/
theorem shifted_bounds (he : e ≤ target m e) :
    m / 2 ^ (target m e - e).toNat < 2 ^ 53 ∧
      (target m e = -1074 ∨ 2 ^ 52 ≤ m / 2 ^ (target m e - e).toNat) := by
  have htarget : target m e = max (m.log2 + e - 52) (-1074) := rfl
  have hnext : m < 2 ^ (m.log2 + 1) := Nat.lt_log2_self
  constructor
  · refine Nat.div_lt_of_lt_mul ?_
    rw [← Nat.pow_add]
    exact hnext.trans_le (Nat.pow_le_pow_right (by decide) (by omega))
  · by_cases hleast : target m e = -1074
    · exact .inl hleast
    · have hm : m ≠ 0 := by
        rintro rfl
        rw [Nat.log2_zero] at htarget
        omega
      refine .inr ((Nat.le_div_iff_mul_le (by positivity)).2 ?_)
      rw [← Nat.pow_add]
      exact (Nat.pow_le_pow_right (by decide) (by omega)).trans (Nat.log2_self_le hm)

theorem target_le (hn : n < 2 ^ 53) (he : -1074 ≤ e) : target n e ≤ e := by
  have hlog : n.log2 < 53 := by
    by_cases hzero : n = 0
    · rw [hzero, Nat.log2_zero]
      decide
    · exact (Nat.log2_lt hzero).2 hn
  rw [target]
  omega

/-- A rounded mantissa at its exponent. When it has become a power of two, its last place is dropped. -/
def carried (s : Sign) (n : Nat) (e : Int) : UnpackedFloat :=
  if h : n / 2 ^ (target n e - e).toNat = 0 then .zero s
  else .finite s (n / 2 ^ (target n e - e).toNat) (e + (target n e - e).toNat) (Nat.pos_of_ne_zero h)

theorem carried_of_lt (s : Sign) (hpos : 0 < n) (hn : n < 2 ^ 53) (he : -1074 ≤ e) :
    carried s n e = .finite s n e hpos := by
  have hshift : (target n e - e).toNat = 0 := by
    have htarget := target_le hn he
    omega
  simp only [carried, hshift, pow_zero, Nat.div_one, Nat.cast_zero, add_zero]
  exact dif_neg hpos.ne'

theorem carried_zero (s : Sign) (e : Int) : carried s 0 e = .zero s := by
  unfold carried
  exact dif_pos (Nat.zero_div _)

theorem carried_power (s : Sign) (he : -1074 ≤ e) :
    carried s (2 ^ 53) e = .finite s (2 ^ 52) (e + 1) (by positivity) := by
  have hshift : (target (2 ^ 53) e - e).toNat = 1 := by
    rw [target, Nat.log2_two_pow]
    omega
  have hhalf : 2 ^ 53 / 2 ^ 1 = 2 ^ 52 := by norm_num
  simp only [carried, hshift, hhalf, Nat.cast_one]
  exact dif_neg (by norm_num)

/-- What a number is rounded to, before it is packed. -/
theorem roundWithAccuracy_eq (s : Sign) (he : e ≤ target m e) :
    roundWithAccuracy .binary64 s m e acc = carried s
      (ExtendedMantissa.ofMantissaAndAccuracy m acc >>> (target m e - e).toNat).roundedMantissa
      (target m e) := by
  have hexponent : e + (target m e - e).toNat = target m e := by omega
  unfold roundWithAccuracy carried
  rw [shiftToTargetExponent_eq, hexponent]
  dsimp only
  rw [shiftToTargetExponent_eq]
  simp only [mantissa_shiftRight, mantissa_ofMantissaAndAccuracy]

/-- A number, counted in the last place of a double, is cut to a mantissa and rounded to one. -/
structure IsRounding (e : Int) (cut n : Nat) (x : ℚ) : Prop where
  le_exponent : -1074 ≤ e
  cut_lt : cut < 2 ^ 53
  full : e = -1074 ∨ 2 ^ 52 ≤ cut
  eq_or_eq : n = cut ∨ n = cut + 1
  isNearest : IsNearest n x
  cut_le : (cut : ℚ) ≤ x
  lt_cut : x < cut + 1

theorem isRounding_of_leaves (hx : Leaves (ExtendedMantissa.ofMantissaAndAccuracy m acc) x)
    (he : e ≤ target m e) :
    IsRounding (target m e) (m / 2 ^ (target m e - e).toNat)
      (ExtendedMantissa.ofMantissaAndAccuracy m acc >>> (target m e - e).toNat).roundedMantissa
      (x / 2 ^ (target m e - e).toNat) := by
  obtain ⟨hcut, hfull⟩ := shifted_bounds he
  have hleaves := hx.shiftRight (target m e - e).toNat
  have hmantissa : (ExtendedMantissa.ofMantissaAndAccuracy m acc >>> (target m e - e).toNat).mantissa =
      m / 2 ^ (target m e - e).toNat := by
    rw [mantissa_shiftRight, mantissa_ofMantissaAndAccuracy]
  have hcases := roundedMantissa_cases
    (ExtendedMantissa.ofMantissaAndAccuracy m acc >>> (target m e - e).toNat)
  have hlow := hleaves.mantissa_le
  have hhigh := hleaves.lt_mantissa
  rw [hmantissa] at hcases hlow hhigh
  exact ⟨le_max_right .., hcut, hfull, hcases, hleaves.isNearest, hlow, hhigh⟩

/-- The least number that is rounded to an infinity. It lies in the middle between the greatest double and the
next power of two. -/
def limit : ℚ :=
  (2 ^ 54 - 1) * 2 ^ (970 : Int)

theorem limit_eq : limit = (2 ^ 53 - 1 / 2) * 2 ^ (971 : Int) := by
  have hpow : (2 : ℚ) ^ (971 : Int) = 2 ^ (970 : Int) * 2 := zpow_add_one₀ two_ne_zero 970
  rw [limit, hpow]
  ring

theorem limit_lt : limit < 2 ^ (1024 : Int) := by
  have hpow : (2 : ℚ) ^ (1024 : Int) = 2 ^ 54 * 2 ^ (970 : Int) := by
    rw [← zpow_natCast, ← zpow_add₀ two_ne_zero]
    rfl
  rw [hpow, limit]
  exact mul_lt_mul_of_pos_right (by norm_num) (by positivity)

theorem le_limit : 2 ^ (1023 : Int) ≤ limit := by
  have hpow : (2 : ℚ) ^ (1023 : Int) = 2 ^ 53 * 2 ^ (970 : Int) := by
    rw [← zpow_natCast, ← zpow_add₀ two_ne_zero]
    rfl
  rw [hpow, limit]
  exact mul_le_mul_of_nonneg_right (by norm_num) (by positivity)

variable {cut : Nat}

theorem IsRounding.exponent_le (h : IsRounding e cut n x) (hx : x * 2 ^ e < limit) : e ≤ 971 := by
  rcases h.full with hleast | hfull
  · omega
  · have hcut : (2 : ℚ) ^ (52 : Int) ≤ x := le_trans (by exact_mod_cast hfull) h.cut_le
    have hlt : (2 : ℚ) ^ (52 + e) < 2 ^ (1024 : Int) := by
      rw [zpow_add₀ two_ne_zero]
      exact (mul_le_mul_of_nonneg_right hcut (by positivity)).trans_lt (hx.trans limit_lt)
    have hexponent := (zpow_lt_zpow_iff_right₀ one_lt_two).1 hlt
    omega

theorem IsRounding.lt_exponent (h : IsRounding e cut n x) (hx : limit ≤ x * 2 ^ e) : 971 ≤ e := by
  have hhigh : x < 2 ^ (53 : Int) := by
    refine h.lt_cut.trans_le ?_
    exact_mod_cast h.cut_lt
  have hlt : (2 : ℚ) ^ (1023 : Int) < 2 ^ (53 + e) := by
    rw [zpow_add₀ two_ne_zero]
    exact (le_limit.trans hx).trans_lt (mul_lt_mul_of_pos_right hhigh (by positivity))
  have hexponent := (zpow_lt_zpow_iff_right₀ one_lt_two).1 hlt
  omega

/-- A number below the limit is rounded to a double that has it in its interval. -/
theorem IsRounding.exists_ofFloat? (h : IsRounding e cut n x) (s : Sign) (hx : x * 2 ^ e < limit) :
    ∃ b, Binary.ofFloat? (Float.ofModel (Float.Model.pack (carried s n e))) = some b ∧
      b.negative = (s == .negative) ∧ b.magnitude = n * 2 ^ e ∧
      (b.mantissa ≠ 0 → (Interval.ofBinary b).Contains (x * 2 ^ e)) := by
  have hexponent : e ≤ 971 := h.exponent_le hx
  obtain ⟨he, hcut, hfull, hn, hnearest, hlow, hhigh⟩ := h
  by_cases hsmall : n < 2 ^ 53
  · rcases Nat.eq_zero_or_pos n with rfl | hpos
    · rw [carried_zero, Binary.ofFloat?_pack_zero]
      exact ⟨_, rfl, rfl, by simp [Binary.magnitude], fun hne => absurd rfl hne⟩
    · have hdouble : Binary.IsDouble ⟨s == .negative, n, e⟩ :=
        ⟨hsmall, he, hexponent, by dsimp only; omega⟩
      rw [carried_of_lt s hpos hsmall he, Binary.ofFloat?_pack_finite _ hdouble]
      refine ⟨_, rfl, rfl, rfl, fun hne => contains_of_isNearest hne hnearest fun hpower hleast => ?_⟩
      dsimp only at hpower hleast ⊢
      obtain rfl : n = cut := by omega
      exact hlow
  · obtain ⟨rfl, rfl⟩ : n = 2 ^ 53 ∧ cut = 2 ^ 53 - 1 := by omega
    have hlt : x < 2 ^ 53 := by
      refine hhigh.trans_eq ?_
      norm_num
    have hge : (2 : ℚ) ^ 53 - 1 / 2 ≤ x := by
      unfold IsNearest at hnearest
      rw [if_pos (by norm_num)] at hnearest
      exact_mod_cast hnearest.1
    have hne : e ≠ 971 := by
      rintro rfl
      rw [limit_eq] at hx
      exact absurd hx (not_lt.2 (mul_le_mul_of_nonneg_right hge (by positivity)))
    have hdouble : Binary.IsDouble ⟨s == .negative, 2 ^ 52, e + 1⟩ :=
      ⟨by norm_num, by dsimp only; omega, by dsimp only; omega, .inr le_rfl⟩
    have hmagnitude : Binary.magnitude ⟨s == .negative, 2 ^ 52, e + 1⟩ = (2 ^ 53 : Nat) * 2 ^ e := by
      rw [Binary.magnitude, zpow_add_one₀ two_ne_zero]
      push_cast
      ring
    rw [carried_power s he, Binary.ofFloat?_pack_finite _ hdouble]
    exact ⟨_, rfl, rfl, hmagnitude, fun _ => contains_of_carry _ he hnearest hlt⟩

/-- No number below the limit is further from what it is rounded to than half the last place of the greatest
double. -/
theorem IsRounding.abs_sub_le (h : IsRounding e cut n x) (hx : x * 2 ^ e < limit) :
    |n * 2 ^ e - x * 2 ^ e| ≤ (2 : ℚ) ^ (970 : Int) := by
  have hnear : |(n : ℚ) - x| ≤ 1 / 2 := by
    have hnearest := h.isNearest
    unfold IsNearest at hnearest
    rw [abs_le]
    split at hnearest
    · exact ⟨by linarith [hnearest.2], by linarith [hnearest.1]⟩
    · exact ⟨by linarith [hnearest.2], by linarith [hnearest.1]⟩
  have hpow : (0 : ℚ) < 2 ^ e := by positivity
  calc |n * 2 ^ e - x * 2 ^ e| = |(n : ℚ) - x| * 2 ^ e := by rw [← sub_mul, abs_mul, abs_of_pos hpow]
    _ ≤ 1 / 2 * 2 ^ e := mul_le_mul_of_nonneg_right hnear hpow.le
    _ = 2 ^ (e - 1) := by rw [zpow_sub_one₀ two_ne_zero]; ring
    _ ≤ 2 ^ (970 : Int) := zpow_le_zpow_right₀ one_le_two (by have := h.exponent_le hx; omega)

/-- A number from the limit on is rounded to an infinity. -/
theorem IsRounding.ofFloat?_eq_none (h : IsRounding e cut n x) (s : Sign) (hx : limit ≤ x * 2 ^ e) :
    Binary.ofFloat? (Float.ofModel (Float.Model.pack (carried s n e))) = none := by
  have hexponent : 971 ≤ e := h.lt_exponent hx
  obtain ⟨he, hcut, hfull, hn, hnearest, hlow, hhigh⟩ := h
  by_cases hsmall : n < 2 ^ 53
  · have hne : e ≠ 971 := by
      rintro rfl
      rw [limit_eq, mul_le_mul_iff_left₀ (by positivity)] at hx
      have hlt : x < 2 ^ 53 - 1 / 2 := by
        -- a tie would go to the power of two, which is even
        unfold IsNearest at hnearest
        split at hnearest
        · have hcast : (n : ℚ) + 2 ≤ 2 ^ 53 := by exact_mod_cast (by omega : n + 2 ≤ 2 ^ 53)
          linarith [hnearest.2]
        · have hcast : (n : ℚ) + 1 ≤ 2 ^ 53 := by exact_mod_cast (by omega : n + 1 ≤ 2 ^ 53)
          linarith [hnearest.2]
      exact absurd hx (not_le.2 hlt)
    rw [carried_of_lt s (by omega) hsmall he]
    exact Binary.ofFloat?_pack_large _ (by omega)
  · obtain rfl : n = 2 ^ 53 := by omega
    rw [carried_power s he]
    exact Binary.ofFloat?_pack_large _ (by omega)

theorem mul_zpow_target (x : ℚ) (he : e ≤ target m e) :
    x / 2 ^ (target m e - e).toNat * 2 ^ target m e = x * 2 ^ e := by
  have hexponent : target m e = (target m e - e).toNat + e := by omega
  conv_lhs => rw [hexponent, zpow_add₀ two_ne_zero, zpow_natCast, ← mul_assoc]
  rw [← hexponent, div_mul_cancel₀ _ (by positivity)]

/-- A number below the limit of which enough bits are kept is rounded to a double near it that has it in its
interval. -/
theorem exists_roundWithAccuracy (hx : Leaves (ExtendedMantissa.ofMantissaAndAccuracy m acc) x)
    (he : e ≤ target m e) (hlarge : x * 2 ^ e < limit) :
    ∃ b, Binary.ofFloat? (Float.ofModel (Float.Model.pack (roundWithAccuracy .binary64 s m e acc))) = some b ∧
      b.negative = (s == .negative) ∧ |b.magnitude - x * 2 ^ e| ≤ 2 ^ (970 : Int) ∧
      (b.mantissa ≠ 0 → (Interval.ofBinary b).Contains (x * 2 ^ e)) := by
  have hrounding := isRounding_of_leaves hx he
  rw [roundWithAccuracy_eq s he, ← mul_zpow_target x he]
  rw [← mul_zpow_target x he] at hlarge
  obtain ⟨b, hb, hnegative, hmagnitude, hcontains⟩ := hrounding.exists_ofFloat? s hlarge
  refine ⟨b, hb, hnegative, ?_, hcontains⟩
  rw [hmagnitude]
  exact hrounding.abs_sub_le hlarge

/-- A number from the limit on of which enough bits are kept is rounded to an infinity. -/
theorem roundWithAccuracy_of_le (hx : Leaves (ExtendedMantissa.ofMantissaAndAccuracy m acc) x)
    (he : e ≤ target m e) (hlarge : limit ≤ x * 2 ^ e) :
    Binary.ofFloat? (Float.ofModel (Float.Model.pack (roundWithAccuracy .binary64 s m e acc))) = none := by
  rw [roundWithAccuracy_eq s he]
  rw [← mul_zpow_target x he] at hlarge
  exact (isRounding_of_leaves hx he).ofFloat?_eq_none s hlarge

/-! ## Division -/

theorem leaves_accuracyOfFraction (m : Nat) {rest d : Nat} (h : rest < d) :
    Leaves (ExtendedMantissa.ofMantissaAndAccuracy m (accuracyOfFraction rest d)) (m + rest / d) := by
  have hd : (0 : ℚ) < d := by exact_mod_cast Nat.zero_lt_of_lt h
  have hlt : (rest : ℚ) / d < 1 := (div_lt_one hd).2 (by exact_mod_cast h)
  unfold accuracyOfFraction
  split
  · next hzero =>
    refine ⟨0, ?_, le_rfl, by norm_num, ⟨fun _ => rfl, fun _ => rfl⟩⟩
    rw [hzero, Nat.cast_zero, zero_div]
    show (m : ℚ) + 0 = m + (if false then 1 / 2 else 0) + 0
    norm_num
  · next hne =>
    have hpos : 0 < (rest : ℚ) / d := div_pos (by exact_mod_cast Nat.pos_of_ne_zero hne) hd
    have htwice : (2 * rest : ℚ) / d = 2 * (rest / d) := mul_div_assoc ..
    rcases lt_trichotomy (2 * rest) d with hhalf | hhalf | hhalf
    · have hcompare : (2 * (rest : ℚ)) / d < 1 := (div_lt_one hd).2 (by exact_mod_cast hhalf)
      rw [Nat.compare_eq_lt.2 hhalf]
      refine ⟨rest / d, ?_, hpos.le, by linarith, ⟨nofun, fun hzero => absurd hzero hpos.ne'⟩⟩
      show (m : ℚ) + rest / d = m + (if false then 1 / 2 else 0) + rest / d
      norm_num
    · have hcompare : (2 * (rest : ℚ)) / d = 1 := (div_eq_one_iff_eq hd.ne').2 (by exact_mod_cast hhalf)
      rw [Nat.compare_eq_eq.2 hhalf]
      refine ⟨0, ?_, le_rfl, by norm_num, ⟨fun _ => rfl, fun _ => rfl⟩⟩
      show (m : ℚ) + rest / d = m + (if true then 1 / 2 else 0) + 0
      rw [if_pos rfl]
      linarith
    · have hcompare : 1 < (2 * (rest : ℚ)) / d := (one_lt_div hd).2 (by exact_mod_cast hhalf)
      rw [Nat.compare_eq_gt.2 hhalf]
      refine ⟨rest / d - 1 / 2, ?_, by linarith, by linarith,
        ⟨nofun, fun hzero => absurd hzero (by linarith)⟩⟩
      show (m : ℚ) + rest / d = m + (if true then 1 / 2 else 0) + (rest / d - 1 / 2)
      rw [if_pos rfl]
      ring

/-- The quotient of mantissas that are shifted far enough has all the bits of a double. -/
theorem le_target_div {m₁ m₂ : Nat} {e₁ e₂ t : Int} (h₁ : m₁ ≠ 0) (h₂ : m₂ ≠ 0)
    (ht : t = min (e₁ - e₂) (Format.binary64.targetExponent (totalExponent m₁ e₁ - totalExponent m₂ e₂))) :
    t ≤ target (m₁ <<< (e₁ - e₂ - t).toNat / m₂) t := by
  have hleast : Format.binary64.minExponent = -1074 := by decide
  have hbits : Format.binary64.mantissaBits = 53 := by decide
  rw [Format.targetExponent, hleast, hbits, totalExponent, totalExponent] at ht
  rw [target]
  by_cases hsmall : t ≤ -1074
  · exact hsmall.trans (le_max_right ..)
  · have hself : 2 ^ m₁.log2 ≤ m₁ := Nat.log2_self_le h₁
    have hnext : m₂ < 2 ^ (m₂.log2 + 1) := Nat.lt_log2_self
    have hfull : 2 ^ 52 ≤ m₁ <<< (e₁ - e₂ - t).toNat / m₂ := by
      refine (Nat.le_div_iff_mul_le (Nat.pos_of_ne_zero h₂)).2 ?_
      rw [Nat.shiftLeft_eq]
      calc 2 ^ 52 * m₂ ≤ 2 ^ 52 * 2 ^ (m₂.log2 + 1) := Nat.mul_le_mul_left _ hnext.le
        _ = 2 ^ (52 + (m₂.log2 + 1)) := (Nat.pow_add ..).symm
        _ ≤ 2 ^ (m₁.log2 + (e₁ - e₂ - t).toNat) := Nat.pow_le_pow_right (by decide) (by omega)
        _ = 2 ^ m₁.log2 * 2 ^ (e₁ - e₂ - t).toNat := Nat.pow_add ..
        _ ≤ m₁ * 2 ^ (e₁ - e₂ - t).toNat := Nat.mul_le_mul_right _ hself
    have hlog : 52 ≤ (m₁ <<< (e₁ - e₂ - t).toNat / m₂).log2 :=
      (Nat.le_log2 (Nat.ne_of_gt (lt_of_lt_of_le (by positivity) hfull))).2 hfull
    exact le_max_of_le_left (by omega)

/-- The whole part and the rest of a quotient of shifted mantissas. -/
theorem quotient_eq (m₁ : Nat) {m₂ : Nat} {e₁ e₂ t : Int} (h₂ : m₂ ≠ 0) (ht : t ≤ e₁ - e₂) :
    ((m₁ <<< (e₁ - e₂ - t).toNat / m₂ : Nat) + (m₁ <<< (e₁ - e₂ - t).toNat % m₂ : Nat) / (m₂ : ℚ)) * 2 ^ t =
      m₁ * 2 ^ e₁ / (m₂ * 2 ^ e₂) := by
  have hm₂ : (m₂ : ℚ) ≠ 0 := Nat.cast_ne_zero.2 h₂
  have hshift : ((m₁ <<< (e₁ - e₂ - t).toNat : Nat) : ℚ) = m₁ * 2 ^ (e₁ - e₂ - t) := by
    rw [Nat.shiftLeft_eq, Nat.cast_mul, Nat.cast_pow, Nat.cast_ofNat, ← zpow_natCast,
      Int.toNat_of_nonneg (by omega)]
  have hpow : (2 : ℚ) ^ (e₁ - e₂ - t) * 2 ^ t = 2 ^ e₁ / 2 ^ e₂ := by
    rw [← zpow_add₀ two_ne_zero, sub_add_cancel, zpow_sub₀ two_ne_zero]
  generalize m₁ <<< (e₁ - e₂ - t).toNat = shifted at hshift ⊢
  have hparts : (m₂ : ℚ) * (shifted / m₂ : Nat) + (shifted % m₂ : Nat) = shifted := by
    exact_mod_cast Nat.div_add_mod shifted m₂
  calc _ = ((m₂ : ℚ) * (shifted / m₂ : Nat) + (shifted % m₂ : Nat)) * 2 ^ t / m₂ := by field_simp
    _ = m₁ * (2 ^ (e₁ - e₂ - t) * 2 ^ t) / m₂ := by rw [hparts, hshift, mul_assoc]
    _ = m₁ * 2 ^ e₁ / (m₂ * 2 ^ e₂) := by rw [hpow, ← mul_div_assoc, div_div, mul_comm (2 ^ e₂ : ℚ)]

/-- A quotient of doubles below the limit is a finite double, which has the exact quotient in its interval. -/
theorem exists_div {v w : Float} {a b : Binary} (hv : Binary.ofFloat? v = some a)
    (hw : Binary.ofFloat? w = some b) (hb : b.mantissa ≠ 0) (hlarge : a.magnitude / b.magnitude < limit) :
    ∃ c, Binary.ofFloat? (v / w) = some c ∧
      (c.mantissa ≠ 0 → (Interval.ofBinary c).Contains (a.magnitude / b.magnitude)) := by
  have hdiv : v / w =
      Float.ofModel (Float.Model.pack (div .binary64 v.toModel.unpack w.toModel.unpack)) := rfl
  obtain ⟨hzero, -⟩ | ⟨s₂, h₂, hw', -⟩ := unpack_of_ofFloat? hw
  · exact absurd hzero hb
  obtain ⟨-, s₁, hv', -⟩ | ⟨s₁, h₁, hv', -⟩ := unpack_of_ofFloat? hv
  · rw [hdiv, hv', hw']
    exact ⟨_, Binary.ofFloat?_pack_zero (s₁ / s₂), fun hne => absurd rfl hne⟩
  · have hquotient := quotient_eq a.mantissa hb (min_le_left (a.exponent - b.exponent)
      (Format.binary64.targetExponent
        (totalExponent a.mantissa a.exponent - totalExponent b.mantissa b.exponent)))
    have hvalue : a.magnitude / b.magnitude =
      a.mantissa * 2 ^ a.exponent / (b.mantissa * 2 ^ b.exponent) := rfl
    rw [hvalue, ← hquotient] at hlarge ⊢
    rw [hdiv, hv', hw']
    obtain ⟨c, hc, -, -, hcontains⟩ := exists_roundWithAccuracy (s := s₁ / s₂)
      (leaves_accuracyOfFraction _ (Nat.mod_lt _ h₂)) (le_target_div h₁.ne' h₂.ne' rfl) hlarge
    exact ⟨c, hc, hcontains⟩

/-! ## Multiplication -/

theorem leaves_exact (m : Nat) : Leaves (ExtendedMantissa.ofMantissaAndAccuracy m .exact) m := by
  refine ⟨0, ?_, le_rfl, by norm_num, ⟨fun _ => rfl, fun _ => rfl⟩⟩
  show (m : ℚ) = m + (if false then 1 / 2 else 0) + 0
  norm_num

/-- A product of two doubles has all the bits of a double. -/
theorem le_target_mul {a b : Binary} (ha : a.IsDouble) (hb : b.IsDouble) (hma : a.mantissa ≠ 0)
    (hmb : b.mantissa ≠ 0) :
    a.exponent + b.exponent ≤ target (a.mantissa * b.mantissa) (a.exponent + b.exponent) := by
  rw [target]
  by_cases hfull : 2 ^ 52 ≤ a.mantissa * b.mantissa
  · have hlog := (Nat.le_log2 (Nat.mul_ne_zero hma hmb)).2 hfull
    omega
  · have hsmall : a.mantissa < 2 ^ 52 ∧ b.mantissa < 2 ^ 52 := by
      constructor
      · exact (Nat.le_mul_of_pos_right _ (Nat.pos_of_ne_zero hmb)).trans_lt (not_le.1 hfull)
      · exact (Nat.le_mul_of_pos_left _ (Nat.pos_of_ne_zero hma)).trans_lt (not_le.1 hfull)
    have hexponents : a.exponent = -1074 ∧ b.exponent = -1074 :=
      ⟨ha.normal.resolve_right (not_le.2 hsmall.1), hb.normal.resolve_right (not_le.2 hsmall.2)⟩
    omega

theorem magnitude_mul (a b : Binary) :
    a.magnitude * b.magnitude = (a.mantissa * b.mantissa : Nat) * 2 ^ (a.exponent + b.exponent) := by
  rw [Binary.magnitude, Binary.magnitude, zpow_add₀ two_ne_zero]
  push_cast
  ring

/-- A product of finite doubles is finite exactly when the exact product is below the limit. -/
theorem isFinite_mul_iff {v w : Float} {a b : Binary} (hv : Binary.ofFloat? v = some a)
    (hw : Binary.ofFloat? w = some b) : isFinite (v * w) = true ↔ a.magnitude * b.magnitude < limit := by
  have hlimit : 0 < limit := lt_of_lt_of_le (by positivity) le_limit
  have hzero (s : Sign) : isFinite (Float.ofModel (Float.Model.pack (.zero s))) = true := by
    rw [isFinite, Binary.ofFloat?_pack_zero]
    rfl
  have hmul : v * w =
      Float.ofModel (Float.Model.pack (mul .binary64 v.toModel.unpack w.toModel.unpack)) := rfl
  rw [magnitude_mul]
  obtain ⟨hnone, s₁, hv', -⟩ | ⟨s₁, h₁, hv', -⟩ := unpack_of_ofFloat? hv <;>
    obtain ⟨hnone', s₂, hw', -⟩ | ⟨s₂, h₂, hw', -⟩ := unpack_of_ofFloat? hw <;> rw [hmul, hv', hw']
  · rw [hnone, Nat.zero_mul, Nat.cast_zero, zero_mul]
    exact iff_of_true (hzero _) hlimit
  · rw [hnone, Nat.zero_mul, Nat.cast_zero, zero_mul]
    exact iff_of_true (hzero _) hlimit
  · rw [hnone', Nat.mul_zero, Nat.cast_zero, zero_mul]
    exact iff_of_true (hzero _) hlimit
  · have hbits := le_target_mul (Binary.isDouble_of_ofFloat? hv) (Binary.isDouble_of_ofFloat? hw)
      h₁.ne' h₂.ne'
    have hleaves := leaves_exact (a.mantissa * b.mantissa)
    rcases lt_or_ge (((a.mantissa * b.mantissa : Nat) : ℚ) * 2 ^ (a.exponent + b.exponent)) limit with
      hlarge | hlarge
    · obtain ⟨c, hc, -⟩ := exists_roundWithAccuracy (s := s₁ * s₂) hleaves hbits hlarge
      exact iff_of_true (Option.isSome_iff_exists.2 ⟨c, hc⟩) hlarge
    · have hnone := roundWithAccuracy_of_le (s := s₁ * s₂) hleaves hbits hlarge
      refine iff_of_false ?_ (not_lt.2 hlarge)
      rw [isFinite, Option.isSome_iff_exists]
      rintro ⟨c, hc⟩
      have hsome := hnone.symm.trans hc
      cases hsome

end VectorIcon.Number
