import Mathlib
import VectorIcon.Proofs.Number.Order
import VectorIcon.Proofs.Number.Whole
import VectorIcon.Proofs.Path.Drawing

/-!
# Doubles as exact numbers

A finite double is a rational number (`exact`). None of them comes near the limit from which on numbers are
rounded to infinities (`abs_exact_le`), and doubles are compared as the numbers that they are
(`lt_iff_exact`). Half a positive double is rounded to a lesser one (`exact_half_lt`).
-/

namespace VectorIcon.Number

open Float.Model UnpackedFloat

variable {v w : Float} {b : Binary}

theorem exact_of_ofFloat? (h : Binary.ofFloat? v = some b) :
    exact v = b.signed b.mantissa * 2 ^ b.exponent := by
  rw [exact, h]

theorem exact_eq_zero (h : Binary.ofFloat? v = some b) (hb : b.mantissa = 0) : exact v = 0 := by
  rw [exact_of_ofFloat? h, Binary.signed, hb]
  simp

theorem abs_exact (h : Binary.ofFloat? v = some b) : |exact v| = b.magnitude := by
  have habs : |((b.signed b.mantissa : ℤ) : ℚ)| = b.mantissa := by
    rw [Binary.signed]
    split <;> simp
  rw [exact_of_ofFloat? h, abs_mul, habs, abs_of_pos (by positivity : (0 : ℚ) < 2 ^ b.exponent), Binary.magnitude]

/-- A finite double is a zero, or it is unpacked to what its exact number is made of. -/
theorem unpack_of_isFinite (h : isFinite v = true) :
    (exact v = 0 ∧ ∃ s, v.toModel.unpack = .zero s) ∨
      ∃ s m e, ∃ hm : 0 < m, v.toModel.unpack = .finite s m e hm ∧ exact v = s.apply m * 2 ^ e ∧
        Binary.IsDouble ⟨s == .negative, m, e⟩ := by
  obtain ⟨b, hb⟩ := exists_ofFloat? h
  rcases unpack_of_ofFloat? hb with ⟨hzero, s, hs, -⟩ | ⟨s, hm, hs, hnegative⟩
  · exact .inl ⟨exact_eq_zero hb hzero, s, hs⟩
  · refine .inr ⟨s, b.mantissa, b.exponent, hm, hs, ?_, ?_⟩
    · rw [exact_of_ofFloat? hb, Binary.signed, hnegative]
      cases s <;> simp [Sign.apply]
    · rw [← hnegative]
      exact Binary.isDouble_of_ofFloat? hb

/-- The greatest double is as far below the limit as half its last place. -/
theorem abs_exact_le (h : isFinite v = true) : |exact v| ≤ limit - 2 ^ (970 : Int) := by
  obtain ⟨b, hb⟩ := exists_ofFloat? h
  obtain ⟨hmantissa, -, hexponent, -⟩ := Binary.isDouble_of_ofFloat? hb
  have hgreatest : limit - 2 ^ (970 : Int) = (2 ^ 53 - 1) * 2 ^ (971 : Int) := by
    have hpow : (2 : ℚ) ^ (971 : Int) = 2 ^ (970 : Int) * 2 := zpow_add_one₀ two_ne_zero 970
    rw [limit, hpow]
    ring
  have hcast : (b.mantissa : ℚ) ≤ 2 ^ 53 - 1 := by
    rw [le_sub_iff_add_le]
    exact_mod_cast hmantissa
  rw [abs_exact hb, hgreatest, Binary.magnitude]
  exact mul_le_mul hcast (zpow_le_zpow_right₀ one_le_two hexponent) (by positivity) (by norm_num)

theorem abs_exact_lt (h : isFinite v = true) : |exact v| < limit := by
  have hpow : (0 : ℚ) < 2 ^ (970 : Int) := by positivity
  exact (abs_exact_le h).trans_lt (sub_lt_self _ hpow)

/-! ## Comparison -/

theorem magnitude_lt_of_exponent_lt {a b : Binary} (ha : a.IsDouble) (hb : b.IsDouble)
    (h : a.exponent < b.exponent) : a.magnitude < b.magnitude := by
  have hfull : (2 : ℚ) ^ 52 ≤ b.mantissa := by
    exact_mod_cast hb.normal.resolve_left (by have := ha.le_exponent; omega)
  have hlt : (a.mantissa : ℚ) < 2 ^ 53 := by exact_mod_cast ha.mantissa_lt
  calc a.magnitude < 2 ^ 53 * 2 ^ a.exponent := mul_lt_mul_of_pos_right hlt (by positivity)
    _ = 2 ^ 52 * 2 ^ (a.exponent + 1) := by rw [zpow_add_one₀ two_ne_zero]; ring
    _ ≤ 2 ^ 52 * 2 ^ b.exponent :=
      mul_le_mul_of_nonneg_left (zpow_le_zpow_right₀ one_le_two (by omega)) (by positivity)
    _ ≤ b.magnitude := mul_le_mul_of_nonneg_right hfull (by positivity)

/-- The exponents of doubles decide first, and then the mantissas. -/
theorem compare_magnitude {a b : Binary} (ha : a.IsDouble) (hb : b.IsDouble) :
    (compare a.exponent b.exponent).then (compare a.mantissa b.mantissa) = compare a.magnitude b.magnitude := by
  rcases lt_trichotomy a.exponent b.exponent with h | h | h
  · rw [compare_lt_iff_lt.2 h, compare_lt_iff_lt.2 (magnitude_lt_of_exponent_lt ha hb h)]
    rfl
  · have hpow : (0 : ℚ) < 2 ^ b.exponent := by positivity
    rw [compare_eq_iff_eq.2 h, Binary.magnitude, Binary.magnitude, h]
    show compare a.mantissa b.mantissa = _
    rcases lt_trichotomy a.mantissa b.mantissa with hm | hm | hm
    · have hlt := mul_lt_mul_of_pos_right (Nat.cast_lt (α := ℚ).2 hm) hpow
      rw [compare_lt_iff_lt.2 hm, compare_lt_iff_lt.2 hlt]
    · rw [compare_eq_iff_eq.2 hm, hm, compare_eq_iff_eq.2 rfl]
    · have hlt := mul_lt_mul_of_pos_right (Nat.cast_lt (α := ℚ).2 hm) hpow
      rw [compare_gt_iff_gt.2 hm, compare_gt_iff_gt.2 hlt]
  · rw [compare_gt_iff_gt.2 h, compare_gt_iff_gt.2 (magnitude_lt_of_exponent_lt hb ha h)]
    rfl

theorem compare_neg (x y : ℚ) : compare (-x) (-y) = (compare x y).swap := by
  rcases lt_trichotomy x y with h | h | h
  · rw [compare_lt_iff_lt.2 h, compare_gt_iff_gt.2 (neg_lt_neg h)]
    rfl
  · rw [compare_eq_iff_eq.2 h, compare_eq_iff_eq.2 (congrArg Neg.neg h)]
    rfl
  · rw [compare_gt_iff_gt.2 h, compare_lt_iff_lt.2 (neg_lt_neg h)]
    rfl

theorem apply_positive (negative : Bool) (m : Nat) (e : Int) :
    ((Sign.apply .positive m : Int) : ℚ) * 2 ^ e = Binary.magnitude ⟨negative, m, e⟩ := by
  rw [Sign.apply, Binary.magnitude, Int.cast_natCast]

theorem apply_negative (negative : Bool) (m : Nat) (e : Int) :
    ((Sign.apply .negative m : Int) : ℚ) * 2 ^ e = -Binary.magnitude ⟨negative, m, e⟩ := by
  rw [Sign.apply, Binary.magnitude, Int.cast_neg, Int.cast_natCast, neg_mul]

theorem magnitude_pos (hm : b.mantissa ≠ 0) : 0 < b.magnitude := by
  have hcast : (0 : ℚ) < b.mantissa := Nat.cast_pos.2 (Nat.pos_of_ne_zero hm)
  rw [Binary.magnitude]
  positivity

/-- Finite doubles are compared as the numbers that they are. -/
theorem compare_unpack (hv : isFinite v = true) (hw : isFinite w = true) :
    v.toModel.unpack.compare w.toModel.unpack = some (compare (exact v) (exact w)) := by
  have hpos (s : Sign) {m : Nat} (hm : 0 < m) (e : Int) : 0 < Binary.magnitude ⟨s == .negative, m, e⟩ :=
    magnitude_pos hm.ne'
  obtain ⟨hx, s, hs⟩ | ⟨s, m, e, hm, hs, hx, hdouble⟩ := unpack_of_isFinite hv <;>
    obtain ⟨hy, t, ht⟩ | ⟨t, n, k, hn, ht, hy, hdouble'⟩ := unpack_of_isFinite hw <;> rw [hs, ht, hx, hy]
  · rw [compare_eq_iff_eq.2 rfl]
    rfl
  · cases t with
    | positive =>
      rw [apply_positive, compare_lt_iff_lt.2 (hpos .positive hn k)]
      rfl
    | negative =>
      rw [apply_negative, compare_gt_iff_gt.2 (neg_lt_zero.2 (hpos .negative hn k))]
      rfl
  · cases s with
    | positive =>
      rw [apply_positive, compare_gt_iff_gt.2 (hpos .positive hm e)]
      rfl
    | negative =>
      rw [apply_negative, compare_lt_iff_lt.2 (neg_lt_zero.2 (hpos .negative hm e))]
      rfl
  · cases s with
    | positive =>
      cases t with
      | positive =>
        rw [apply_positive, apply_positive, ← compare_magnitude hdouble hdouble']
        rfl
      | negative =>
        rw [apply_positive, apply_negative,
          compare_gt_iff_gt.2 ((neg_lt_zero.2 (hpos .negative hn k)).trans (hpos .positive hm e))]
        rfl
    | negative =>
      cases t with
      | positive =>
        rw [apply_negative, apply_positive,
          compare_lt_iff_lt.2 ((neg_lt_zero.2 (hpos .negative hm e)).trans (hpos .positive hn k))]
        rfl
      | negative =>
        rw [apply_negative, apply_negative, compare_neg, ← compare_magnitude hdouble hdouble']
        rfl

theorem lt_iff_exact (hv : isFinite v = true) (hw : isFinite w = true) : v < w ↔ exact v < exact w := by
  rw [lt_iff_compare, compare_unpack hv hw, Option.some.injEq, compare_lt_iff_lt]

theorem exact_zero : exact 0 = 0 :=
  exact_eq_zero (b := ⟨false, 0, -1074⟩) (by decide +kernel) rfl

theorem exact_pos (hv : isFinite v = true) (h : 0 < v) : 0 < exact v := by
  have hlt := (lt_iff_exact (by decide) hv).1 h
  rwa [exact_zero] at hlt

theorem exact_pos_of_not_le (hv : isFinite v = true) (h : ¬ v ≤ 0) : 0 < exact v := by
  refine exact_pos hv ?_
  by_contra hnot
  exact h (Number.le_of_not_lt (by decide) (isNaN_of_isFinite hv) hnot)

/-! ## Halves -/

theorem ofFloat?_two : Binary.ofFloat? 2 = some ⟨false, 2 ^ 52, -51⟩ := by decide +kernel

/-- A number is rounded to less than its double. -/
theorem magnitude_lt_of_contains {c : Binary} {x : ℚ} (hc : c.mantissa ≠ 0)
    (h : (Interval.ofBinary c).Contains x) : c.magnitude < 2 * x := by
  have hpow : (0 : ℚ) < 2 ^ c.exponent := by positivity
  obtain ⟨y, rfl⟩ : ∃ y, x = y * 2 ^ c.exponent := ⟨x / 2 ^ c.exponent, (div_mul_cancel₀ x hpow.ne').symm⟩
  have hlow : 4 * c.mantissa ≤ (Interval.ofBinary c).low + 2 := by
    unfold Interval.ofBinary
    dsimp only
    split <;> omega
  have hcast : (4 : ℚ) * c.mantissa ≤ (Interval.ofBinary c).low + 2 := by exact_mod_cast hlow
  have hmantissa : (c.mantissa : ℚ) < 2 * y := by
    rw [contains_mul_iff] at h
    split at h
    · next heven =>
      have htwo : (2 : ℚ) ≤ c.mantissa := by exact_mod_cast (by omega : 2 ≤ c.mantissa)
      linarith [h.1]
    · next hodd =>
      have hone : (1 : ℚ) ≤ c.mantissa := by exact_mod_cast (by omega : 1 ≤ c.mantissa)
      linarith [h.1]
  rw [Binary.magnitude, ← mul_assoc]
  exact mul_lt_mul_of_pos_right hmantissa hpow

/-- A half of a positive double is finite and less. -/
theorem exact_half_lt (h : isFinite w = true) (hpos : 0 < exact w) :
    isFinite (w / 2) = true ∧ exact (w / 2) < exact w := by
  obtain ⟨b, hb⟩ := exists_ofFloat? h
  have htwo : Binary.magnitude ⟨false, 2 ^ 52, -51⟩ = 2 := by
    norm_num [Binary.magnitude]
  have hmagnitude : b.magnitude = exact w := by rw [← abs_exact hb, abs_of_pos hpos]
  have hlarge : b.magnitude / Binary.magnitude ⟨false, 2 ^ 52, -51⟩ < limit := by
    rw [htwo, hmagnitude]
    linarith [(abs_lt.1 (abs_exact_lt h)).2]
  obtain ⟨c, hc, hcontains⟩ := exists_div hb ofFloat?_two (by norm_num) hlarge
  refine ⟨Option.isSome_iff_exists.2 ⟨c, hc⟩, ?_⟩
  by_cases hzero : c.mantissa = 0
  · rwa [exact_eq_zero hc hzero]
  · have hlt := magnitude_lt_of_contains hzero (hcontains hzero)
    rw [htwo, hmagnitude] at hlt
    calc exact (w / 2) ≤ |exact (w / 2)| := le_abs_self _
      _ = c.magnitude := abs_exact hc
      _ < 2 * (exact w / 2) := hlt
      _ = exact w := by ring

/-! ## Fractions -/

theorem isFinite_of_beq (h : (v == w) = true) (hw : isFinite w = true) : isFinite v = true := by
  obtain ⟨-, -, rfl | ⟨rfl, -⟩ | ⟨rfl, -⟩⟩ := Float.beq_iff_ne_nan_and_eq.1 h
  · exact hw
  · decide
  · decide

theorem isFinite_mul_iff_exact (hv : isFinite v = true) (hw : isFinite w = true) :
    isFinite (v * w) = true ↔ |exact v| * |exact w| < limit := by
  obtain ⟨a, ha⟩ := exists_ofFloat? hv
  obtain ⟨b, hb⟩ := exists_ofFloat? hw
  rw [isFinite_mul_iff ha hb, abs_exact ha, abs_exact hb]

/-- A hundredth of a finite double is finite. -/
theorem isFinite_percent (h : isFinite v = true) : isFinite (v / 100) = true := by
  obtain ⟨b, hb⟩ := exists_ofFloat? h
  have hhundred : Binary.ofFloat? 100 = some ⟨false, 25 * 2 ^ 48, -46⟩ := by decide +kernel
  have hmagnitude : Binary.magnitude ⟨false, 25 * 2 ^ 48, -46⟩ = 100 := by
    norm_num [Binary.magnitude]
  have hlarge : b.magnitude / Binary.magnitude ⟨false, 25 * 2 ^ 48, -46⟩ < limit := by
    rw [hmagnitude, ← abs_exact hb]
    linarith [abs_exact_lt h, abs_nonneg (exact v)]
  obtain ⟨c, hc, -⟩ := exists_div hb hhundred (by norm_num) hlarge
  exact Option.isSome_iff_exists.2 ⟨c, hc⟩

theorem exact_one : exact 1 = 1 := by
  rw [exact_of_ofFloat? (b := ⟨false, 2 ^ 52, -52⟩) (by decide +kernel)]
  norm_num [Binary.signed]

/-- A finite double from zero to one. -/
structure IsFraction (v : Float) : Prop where
  isFinite : isFinite v = true
  nonneg : 0 ≤ exact v
  le_one : exact v ≤ 1

theorem isFraction_one : IsFraction 1 :=
  ⟨by decide, by rw [exact_one]; exact zero_le_one, exact_one.le⟩

theorem isFraction_clamp (h : isFinite v = true) : IsFraction (clamp 0 1 v) := by
  have hzero : isFinite 0 = true := by decide
  have hone : isFinite 1 = true := by decide
  unfold clamp
  split
  · exact ⟨hzero, exact_zero.ge, exact_zero.le.trans zero_le_one⟩
  · next hlow =>
    rw [lt_iff_exact h hzero, exact_zero, not_lt] at hlow
    split
    · exact isFraction_one
    · next hhigh =>
      rw [lt_iff_exact hone h, exact_one, not_lt] at hhigh
      exact ⟨h, hlow, hhigh⟩

theorem IsFraction.isFinite_mul (hv : IsFraction v) (hw : IsFraction w) : Number.isFinite (v * w) = true := by
  have hlimit : (1 : ℚ) < limit := (one_lt_zpow₀ one_lt_two (by decide)).trans_le le_limit
  rw [isFinite_mul_iff_exact hv.isFinite hw.isFinite, abs_of_nonneg hv.nonneg, abs_of_nonneg hw.nonneg]
  exact (mul_le_one₀ hv.le_one hw.nonneg hw.le_one).trans_lt hlimit

end VectorIcon.Number
