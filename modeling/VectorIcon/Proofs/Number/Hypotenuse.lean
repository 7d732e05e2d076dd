import VectorIcon.Proofs.Number.Exact

/-!
# Lengths of vectors

The length of a vector of doubles is the double nearest to the root of a sum of squares. So it is finite exactly
when the sum is below the square of the limit (`isFinite_hypotenuse_iff`). What a nearest root is made of is
the whole part of the root of four times a number, which is compared with squares (`IsNearestRoot`).
-/

namespace VectorIcon.Number

/-! ## Roots of whole numbers -/

/-- The root of a number, to the nearest whole number and a half to the even one: it is found from the whole part
`h` of the double root. -/
def IsNearestRoot (m : Nat) (q : ℚ) : Prop :=
  ∃ h : Nat, (h : ℚ) ^ 2 ≤ 4 * q ∧ 4 * q < (h + 1 : ℚ) ^ 2 ∧
    (m = (h + 1) / 2 ∨ h % 2 = 1 ∧ (h + 1) / 2 % 2 = 1 ∧ m = (h + 1) / 2 - 1)

/-- The whole part of a root. -/
theorem rootFrom_mem (n : Nat) :
    let r := rootFrom n (n.log2 / 2 + 1) 0
    r * r ≤ n ∧ n < (r + 1) * (r + 1) := by
  refine ⟨rootFrom_mul_self_le _ (Nat.zero_le _), lt_rootFrom_succ_mul_self ?_⟩
  rw [Nat.zero_add, Nat.one_shiftLeft, ← Nat.pow_add]
  exact Nat.lt_log2_self.trans_le (Nat.pow_le_pow_right (by decide) (by omega))

theorem isNearestRoot_nearestRoot (n : Nat) {d : Nat} (hd : 0 < d) :
    IsNearestRoot (nearestRoot n d) (n / d) := by
  obtain ⟨hle, hlt⟩ := rootFrom_mem (4 * n / d)
  unfold nearestRoot
  dsimp only at hle hlt ⊢
  generalize rootFrom (4 * n / d) ((4 * n / d).log2 / 2 + 1) 0 = h at hle hlt ⊢
  rw [Nat.le_div_iff_mul_le hd] at hle
  rw [Nat.div_lt_iff_lt_mul hd] at hlt
  have hpos : (0 : ℚ) < d := Nat.cast_pos.2 hd
  refine ⟨h, ?_, ?_, ?_⟩
  · rw [← mul_div_assoc, le_div_iff₀ hpos, sq]
    exact_mod_cast hle
  · rw [← mul_div_assoc, div_lt_iff₀ hpos, sq]
    exact_mod_cast hlt
  · split
    · next heven => exact .inr ⟨heven.2.1, heven.2.2, rfl⟩
    · exact .inl rfl

section

variable {m : Nat} {q : ℚ}

theorem IsNearestRoot.le_two_pow (h : IsNearestRoot m q) (hq : q < 2 ^ 106) : m ≤ 2 ^ 53 := by
  obtain ⟨r, hle, -, hm⟩ := h
  have hr : r < 2 ^ 54 := by
    have hsq : (r : ℚ) ^ 2 < (2 ^ 54) ^ 2 := by linarith
    exact_mod_cast lt_of_pow_lt_pow_left₀ 2 (by positivity) hsq
  omega

theorem IsNearestRoot.two_pow_le (h : IsNearestRoot m q) (hq : 2 ^ 104 ≤ q) : 2 ^ 52 ≤ m := by
  obtain ⟨r, -, hlt, hm⟩ := h
  have hr : 2 ^ 53 < r + 1 := by
    have hsq : ((2 : ℚ) ^ 53) ^ 2 < (r + 1) ^ 2 := by linarith
    exact_mod_cast lt_of_pow_lt_pow_left₀ 2 (by positivity) hsq
  omega

/-- The half between the greatest mantissa and the next power of two goes up. -/
theorem IsNearestRoot.eq_two_pow_iff (h : IsNearestRoot m q) (hq : q < 2 ^ 106) :
    m = 2 ^ 53 ↔ (2 ^ 54 - 1) ^ 2 ≤ 4 * q := by
  have hle := h.le_two_pow hq
  obtain ⟨r, hlow, hhigh, hm⟩ := h
  have hr : 2 ^ 54 - 1 ≤ r ↔ (2 ^ 54 - 1) ^ 2 ≤ 4 * q := by
    constructor
    · intro hr
      have hcast : (2 : ℚ) ^ 54 - 1 ≤ r := by
        rw [sub_le_iff_le_add]
        exact_mod_cast (by omega : 2 ^ 54 ≤ r + 1)
      exact (pow_le_pow_left₀ (by norm_num) hcast 2).trans hlow
    · intro hsq
      have hcast : (2 : ℚ) ^ 54 - 1 < r + 1 := lt_of_pow_lt_pow_left₀ 2 (by positivity) (hsq.trans_lt hhigh)
      rw [sub_lt_iff_lt_add] at hcast
      have hlt : 2 ^ 54 < r + 1 + 1 := by exact_mod_cast hcast
      omega
  rw [← hr]
  omega

end

/-! ## Roots as doubles -/

/-- The place of the last digit of a root. -/
def rootExponent (n : Nat) (e : Int) : Int :=
  max (-1074) (e + (n.log2 / 2 + 1) - 53)

theorem isNearestRoot_mantissa (n : Nat) (e s : Int) :
    IsNearestRoot
      (if s < e then nearestRoot (n <<< (2 * (e - s).natAbs)) 1 else nearestRoot n (1 <<< (2 * (s - e).natAbs)))
      (n * 2 ^ (2 * (e - s))) := by
  split
  · next hlt =>
    have hroot := isNearestRoot_nearestRoot (n <<< (2 * (e - s).natAbs)) Nat.one_pos
    have hexponent : 2 * (e - s) = (2 * (e - s).natAbs : Nat) := by omega
    rw [hexponent, zpow_natCast, Nat.shiftLeft_eq]
    rw [Nat.shiftLeft_eq, Nat.cast_one, div_one, Nat.cast_mul, Nat.cast_pow, Nat.cast_ofNat] at hroot
    exact hroot
  · next hle =>
    have hroot := isNearestRoot_nearestRoot n (d := 1 <<< (2 * (s - e).natAbs))
      (by rw [Nat.one_shiftLeft]; positivity)
    have hexponent : 2 * (e - s) = -(2 * (s - e).natAbs : Nat) := by omega
    rw [hexponent, zpow_neg, zpow_natCast, ← div_eq_mul_inv, Nat.one_shiftLeft]
    rw [Nat.one_shiftLeft, Nat.cast_pow, Nat.cast_ofNat] at hroot
    exact hroot

/-- The root fits into 53 bits. -/
theorem scaled_lt (n : Nat) (e : Int) : (n : ℚ) * 2 ^ (2 * (e - rootExponent n e)) < 2 ^ 106 := by
  have hn : (n : ℚ) < 2 ^ (n.log2 + 1) := by exact_mod_cast Nat.lt_log2_self
  have hexponent : (n.log2 + 1 : Nat) + 2 * (e - rootExponent n e) ≤ 106 := by
    unfold rootExponent
    omega
  calc (n : ℚ) * 2 ^ (2 * (e - rootExponent n e))
      < 2 ^ (n.log2 + 1) * 2 ^ (2 * (e - rootExponent n e)) := mul_lt_mul_of_pos_right hn (by positivity)
    _ = 2 ^ ((n.log2 + 1 : Nat) + 2 * (e - rootExponent n e)) := by
      rw [zpow_add₀ two_ne_zero, zpow_natCast]
    _ ≤ 2 ^ (106 : Int) := zpow_le_zpow_right₀ one_le_two hexponent

/-- The root has 53 bits, unless its last place is that of the least double. -/
theorem le_scaled {n : Nat} {e : Int} (hn : n ≠ 0) (h : rootExponent n e ≠ -1074) :
    2 ^ 104 ≤ (n : ℚ) * 2 ^ (2 * (e - rootExponent n e)) := by
  have hself : (2 : ℚ) ^ n.log2 ≤ n := by exact_mod_cast Nat.log2_self_le hn
  have hexponent : 104 ≤ n.log2 + 2 * (e - rootExponent n e) := by
    unfold rootExponent at h ⊢
    omega
  calc (2 : ℚ) ^ (104 : Int) ≤ 2 ^ (n.log2 + 2 * (e - rootExponent n e)) :=
        zpow_le_zpow_right₀ one_le_two hexponent
    _ = 2 ^ n.log2 * 2 ^ (2 * (e - rootExponent n e)) := by rw [zpow_add₀ two_ne_zero, zpow_natCast]
    _ ≤ n * 2 ^ (2 * (e - rootExponent n e)) := mul_le_mul_of_nonneg_right hself (by positivity)

/-- A power of two that does not fit loses a zero at its end. -/
theorem toFloat_two_pow {s : Int} (h : -1074 ≤ s) :
    Binary.toFloat ⟨false, 2 ^ 53, s⟩ = Binary.toFloat ⟨false, 2 ^ 52, s + 1⟩ := by
  have hne (k : Nat) : ¬ 2 ^ k = 0 := (Nat.two_pow_pos k).ne'
  have hlow : (if s + (53 + 1 : Nat) - 53 < -1074 then -1074 else s + (53 + 1 : Nat) - 53) = s + 1 := by
    rw [if_neg (by omega)]
    omega
  have hlow' : (if s + 1 + (52 + 1 : Nat) - 53 < -1074 then -1074 else s + 1 + (52 + 1 : Nat) - 53) = s + 1 := by
    rw [if_neg (by omega)]
    omega
  have hshift : 2 ^ 53 >>> (s + 1 - s).natAbs = 2 ^ 52 := by
    rw [add_sub_cancel_left]
    rfl
  have hkeep : 2 ^ 52 <<< (s + 1 - (s + 1)).natAbs = 2 ^ 52 := by
    rw [sub_self]
    rfl
  unfold Binary.toFloat
  simp only [Nat.log2_two_pow, if_neg (hne _), hlow, hlow', if_pos (lt_add_one s), lt_irrefl, if_false,
    hshift, hkeep, Nat.succ_ne_zero]

/-- A root of at most 53 bits, or the next power of two, becomes a finite double. -/
theorem isFinite_toFloat {m : Nat} {s : Int} (hm : m ≤ 2 ^ 53) (hlow : -1074 ≤ s) (hhigh : s ≤ 971)
    (hlarge : m = 2 ^ 53 → s ≤ 970) : isFinite (Binary.toFloat ⟨false, m, s⟩) = true := by
  rcases hm.lt_or_eq with hlt | rfl
  · obtain ⟨c, hc, -⟩ := Binary.exists_ofFloat?_toFloat (b := ⟨false, m, s⟩) hlt hlow hhigh
    exact Option.isSome_iff_exists.2 ⟨c, hc⟩
  · rw [toFloat_two_pow hlow]
    obtain ⟨c, hc, -⟩ := Binary.exists_ofFloat?_toFloat (b := ⟨false, 2 ^ 52, s + 1⟩) (by norm_num)
      (by dsimp only; omega) (by have := hlarge rfl; dsimp only; omega)
    exact Option.isSome_iff_exists.2 ⟨c, hc⟩

theorem rootToFloat_eq (n : Nat) (e : Int) : ∃ m, IsNearestRoot m (n * 2 ^ (2 * (e - rootExponent n e))) ∧
    rootToFloat n e =
      if 1023 < rootExponent n e + m.log2 then 1.0 / 0.0 else Binary.toFloat ⟨false, m, rootExponent n e⟩ :=
  ⟨_, isNearestRoot_mantissa n e (rootExponent n e), rfl⟩

/-! ## Roots and the limit -/

section

variable {m : Nat} {q : ℚ} {s : Int}

theorem log2_le_of_lt {k : Nat} (h : m < 2 ^ (k + 1)) : m.log2 ≤ k := by
  by_cases hzero : m = 0
  · rw [hzero, Nat.log2_zero]
    exact k.zero_le
  · exact Nat.le_of_lt_succ ((Nat.log2_lt hzero).2 h)

theorem sq_limit : limit ^ 2 = (2 ^ 54 - 1) ^ 2 * 2 ^ (1940 : Int) := by
  rw [limit, mul_pow, ← zpow_natCast (2 ^ (970 : Int)), ← zpow_mul]
  rfl

theorem lt_sq_limit (hq : q < 2 ^ 106) (hs : s ≤ 970) : q * 2 ^ (2 * s) < limit ^ 2 := by
  rw [sq_limit]
  calc q * 2 ^ (2 * s) < 2 ^ 106 * 2 ^ (2 * s) := mul_lt_mul_of_pos_right hq (by positivity)
    _ ≤ 2 ^ 106 * 2 ^ (1940 : Int) :=
        mul_le_mul_of_nonneg_left (zpow_le_zpow_right₀ one_le_two (by omega)) (by positivity)
    _ ≤ (2 ^ 54 - 1) ^ 2 * 2 ^ (1940 : Int) := mul_le_mul_of_nonneg_right (by norm_num) (by positivity)

theorem sq_limit_le (hq : 2 ^ 104 ≤ q) (hs : 972 ≤ s) : limit ^ 2 ≤ q * 2 ^ (2 * s) := by
  rw [sq_limit]
  calc ((2 : ℚ) ^ 54 - 1) ^ 2 * 2 ^ (1940 : Int) ≤ 2 ^ 104 * 2 ^ (4 : Int) * 2 ^ (1940 : Int) :=
        mul_le_mul_of_nonneg_right (by norm_num) (by positivity)
    _ = 2 ^ 104 * 2 ^ (1944 : Int) := by rw [mul_assoc, ← zpow_add₀ two_ne_zero]; rfl
    _ ≤ q * 2 ^ (2 * s) :=
        mul_le_mul hq (zpow_le_zpow_right₀ one_le_two (by omega)) (by positivity) (by linarith)

/-- With the last place of the greatest doubles, a root is below the limit when it does not go up to a power
of two. -/
theorem IsNearestRoot.lt_sq_limit_iff (h : IsNearestRoot m q) (hq : q < 2 ^ 106) :
    q * 2 ^ (2 * (971 : Int)) < limit ^ 2 ↔ m ≠ 2 ^ 53 := by
  have hquarter : q * 2 ^ (2 * (971 : Int)) = 4 * q * 2 ^ (1940 : Int) := by
    rw [show (2 * 971 : Int) = 2 + 1940 from rfl, zpow_add₀ two_ne_zero]
    ring
  rw [hquarter, sq_limit, mul_lt_mul_iff_left₀ (by positivity), ← not_le]
  exact not_congr (h.eq_two_pow_iff hq).symm

end

/-- A root becomes a finite double exactly when it is below the limit. -/
theorem isFinite_rootToFloat_iff {n : Nat} {e : Int} (he : e ≤ 971) :
    isFinite (rootToFloat n e) = true ↔ (n : ℚ) * 2 ^ (2 * e) < limit ^ 2 := by
  have hinfinite : isFinite (1.0 / 0.0) ≠ true := by decide +kernel
  obtain ⟨m, hroot, heq⟩ := rootToFloat_eq n e
  have hlt := scaled_lt n e
  have hge := @le_scaled n e
  have hvalue : (n : ℚ) * 2 ^ (2 * e) = n * 2 ^ (2 * (e - rootExponent n e)) * 2 ^ (2 * rootExponent n e) := by
    rw [mul_assoc, ← zpow_add₀ two_ne_zero]
    congr 2
    ring
  have hm := hroot.le_two_pow hlt
  have hlog : m.log2 ≤ 53 := log2_le_of_lt (by omega)
  have hlow : -1074 ≤ rootExponent n e := le_max_left _ _
  rw [heq, hvalue]
  generalize (n : ℚ) * 2 ^ (2 * (e - rootExponent n e)) = q at hroot hlt hge ⊢
  rcases lt_trichotomy (rootExponent n e) 971 with hs | hs | hs
  · rw [if_neg (by omega)]
    exact iff_of_true (isFinite_toFloat hm hlow (by omega) (by omega)) (lt_sq_limit hlt (by omega))
  · rw [hs, hroot.lt_sq_limit_iff hlt]
    by_cases hpower : m = 2 ^ 53
    · rw [if_pos (by rw [hpower, Nat.log2_two_pow]; decide)]
      exact iff_of_false hinfinite (not_not_intro hpower)
    · have hlog' : m.log2 ≤ 52 := log2_le_of_lt (by omega)
      rw [if_neg (by omega)]
      exact iff_of_true (isFinite_toFloat hm (by decide) le_rfl fun h => absurd h hpower) hpower
  · -- A root of zero has the least place, so that this one has all its digits.
    have hn : n ≠ 0 := by
      rintro rfl
      rw [rootExponent, Nat.log2_zero] at hs
      omega
    have hq := hge hn (by omega)
    have hm₀ := hroot.two_pow_le hq
    have hlog : 52 ≤ m.log2 := (Nat.le_log2 (by omega)).2 hm₀
    rw [if_pos (by omega)]
    exact iff_of_false hinfinite (not_lt.2 (sq_limit_le hq (by omega)))

/-! ## Vectors -/

variable {v w : Float}

/-- A vector of finite doubles whose length is below the limit. -/
structure HasLength (v w : Float) : Prop where
  left : isFinite v = true
  right : isFinite w = true
  lt_limit : exact v ^ 2 + exact w ^ 2 < limit ^ 2

theorem hypotenuse_of_isFinite {a b : Binary} (hv : Binary.ofFloat? v = some a) (hw : Binary.ofFloat? w = some b) :
    ∃ n : Nat, ∃ e ≤ 971, hypotenuse v w = rootToFloat n e ∧
      (n : ℚ) * 2 ^ (2 * e) = exact v ^ 2 + exact w ^ 2 := by
  have ha := Binary.magnitude_shiftLeft a.negative a.mantissa (min_le_left a.exponent b.exponent)
  have hb := Binary.magnitude_shiftLeft b.negative b.mantissa (min_le_right a.exponent b.exponent)
  refine ⟨_, min a.exponent b.exponent,
    (min_le_left _ _).trans (Binary.isDouble_of_ofFloat? hv).exponent_le, by rw [hypotenuse, hv, hw], ?_⟩
  rw [← sq_abs (exact v), ← sq_abs (exact w), abs_exact hv, abs_exact hw, two_mul, zpow_add₀ two_ne_zero]
  calc _ = Binary.magnitude ⟨a.negative, a.mantissa <<< (a.exponent - min a.exponent b.exponent).natAbs,
              min a.exponent b.exponent⟩ ^ 2 +
          Binary.magnitude ⟨b.negative, b.mantissa <<< (b.exponent - min a.exponent b.exponent).natAbs,
              min a.exponent b.exponent⟩ ^ 2 := by
        rw [Binary.magnitude, Binary.magnitude]
        push_cast
        ring
    _ = a.magnitude ^ 2 + b.magnitude ^ 2 := by rw [ha, hb]

/-- The length of a vector that is not finite is an infinity or no number. -/
theorem hypotenuse_of_not_isFinite (h : ¬ (isFinite v = true ∧ isFinite w = true)) :
    isFinite (hypotenuse v w) = false := by
  have hinfinite : isFinite (1.0 / 0.0) = false := by decide +kernel
  have hnan : isFinite (0.0 / 0.0) = false := by decide +kernel
  unfold hypotenuse
  split
  · next hv hw =>
    exact absurd ⟨Option.isSome_iff_exists.2 ⟨_, hv⟩, Option.isSome_iff_exists.2 ⟨_, hw⟩⟩ h
  · split
    · exact hinfinite
    · exact hnan

/-- The length of a vector is finite exactly when it is below the limit of doubles. -/
theorem isFinite_hypotenuse_iff : isFinite (hypotenuse v w) = true ↔ HasLength v w := by
  by_cases h : isFinite v = true ∧ isFinite w = true
  · obtain ⟨a, ha⟩ := exists_ofFloat? h.1
    obtain ⟨b, hb⟩ := exists_ofFloat? h.2
    obtain ⟨n, e, he, heq, hvalue⟩ := hypotenuse_of_isFinite ha hb
    rw [heq, isFinite_rootToFloat_iff he, hvalue]
    exact ⟨fun hlt => ⟨h.1, h.2, hlt⟩, HasLength.lt_limit⟩
  · rw [hypotenuse_of_not_isFinite h]
    exact iff_of_false Bool.false_ne_true fun hlength => h ⟨hlength.left, hlength.right⟩

end VectorIcon.Number
