import Mathlib
import VectorIcon.Number.Shortest
import VectorIcon.Proofs.Number.Decoding

/-!
# The digits that are found

A number on one of the decimal grids that are tried is enough for the search to find one, and what it finds is
on the coarsest grid that has any (`search_spec`). So a double that has a multiple of a millionth among the
reals that round to it is written with at most six places, and with no zero at their end (`shortest_places`).
-/

namespace VectorIcon.Number

namespace Interval

variable {i : Interval} {tie : Tie} {n : Nat} {k : Int} {x : ℚ}

/-- A number lies in the interval. -/
def Contains (i : Interval) (x : ℚ) : Prop :=
  if i.closed then i.low * 2 ^ i.exponent ≤ x ∧ x ≤ i.high * 2 ^ i.exponent
  else i.low * 2 ^ i.exponent < x ∧ x < i.high * 2 ^ i.exponent

theorem Contains.low_le (h : i.Contains x) : i.low * 2 ^ i.exponent ≤ x := by
  unfold Contains at h
  split at h
  · exact h.1
  · exact h.1.le

theorem Contains.le_high (h : i.Contains x) : x ≤ i.high * 2 ^ i.exponent := by
  unfold Contains at h
  split at h
  · exact h.2
  · exact h.2.le

theorem contains_of_lt (hlow : i.low * 2 ^ i.exponent < x) (hhigh : x < i.high * 2 ^ i.exponent) :
    i.Contains x := by
  unfold Contains
  split
  · exact ⟨hlow.le, hhigh.le⟩
  · exact ⟨hlow, hhigh⟩

/-- What lies between two numbers of the interval is in it. -/
theorem Contains.between {y z : ℚ} (hx : i.Contains x) (hz : i.Contains z) (hxy : x ≤ y) (hyz : y ≤ z) :
    i.Contains y := by
  unfold Contains at hx hz ⊢
  split
  · next hclosed =>
    rw [if_pos hclosed] at hx hz
    exact ⟨hx.1.trans hxy, hyz.trans hz.2⟩
  · next hopen =>
    rw [if_neg hopen] at hx hz
    exact ⟨hx.1.trans_le hxy, hyz.trans_lt hz.2⟩

/-! ## Points of a grid -/

theorem scaledDenominator_pos (e k : Int) : 0 < scaledDenominator e k := by
  unfold scaledDenominator
  refine Nat.mul_pos ?_ ?_
  · split
    · rw [Nat.one_shiftLeft]
      positivity
    · exact Nat.one_pos
  · split
    · exact Nat.pow_pos (by decide)
    · exact Nat.one_pos

/-- The factor of a positive power goes to the numerator, that of a negative one to the denominator. -/
theorem power_eq (a : Nat) (ha : (a : ℚ) ≠ 0) (e : Int) :
    ((if 0 ≤ e then a ^ e.natAbs else 1 : Nat) : ℚ) = a ^ e * (if e < 0 then a ^ e.natAbs else 1 : Nat) := by
  split
  · next he =>
    rw [if_neg (by omega), Nat.cast_one, mul_one, Nat.cast_pow, ← zpow_natCast,
      Int.natAbs_of_nonneg he]
  · next he =>
    have hneg : ((e.natAbs : Nat) : Int) = -e := by omega
    rw [if_pos (by omega), Nat.cast_one, Nat.cast_pow, ← zpow_natCast, hneg, ← zpow_add₀ ha,
      add_neg_cancel, zpow_zero]

/-- A number of the interval's unit, counted in points of a grid. -/
theorem scaledNumerator_eq (n : Nat) (e k : Int) :
    (scaledNumerator n e k : ℚ) * 10 ^ k = n * 2 ^ e * scaledDenominator e k := by
  have htwo := power_eq 2 (by norm_num) e
  have hten := power_eq 10 (by norm_num) k
  unfold scaledNumerator scaledDenominator
  rw [Nat.one_shiftLeft]
  simp only [Nat.pow_eq, Nat.cast_mul]
  rw [htwo, hten]
  push_cast
  ring

/-- The model compares such a number with a point of the grid on natural numbers. -/
theorem scaledNumerator_le_iff (m n : Nat) (e k : Int) :
    scaledNumerator m e k ≤ n * scaledDenominator e k ↔ (m : ℚ) * 2 ^ e ≤ n * 10 ^ k := by
  have hd : (0 : ℚ) < scaledDenominator e k := Nat.cast_pos.2 (scaledDenominator_pos e k)
  have hten : (0 : ℚ) < 10 ^ k := by positivity
  rw [← Nat.cast_le (α := ℚ), ← mul_le_mul_iff_left₀ hten, scaledNumerator_eq, Nat.cast_mul,
    mul_right_comm (n : ℚ), mul_le_mul_iff_left₀ hd]

theorem le_scaledNumerator_iff (m n : Nat) (e k : Int) :
    n * scaledDenominator e k ≤ scaledNumerator m e k ↔ (n : ℚ) * 10 ^ k ≤ m * 2 ^ e := by
  have hd : (0 : ℚ) < scaledDenominator e k := Nat.cast_pos.2 (scaledDenominator_pos e k)
  have hten : (0 : ℚ) < 10 ^ k := by positivity
  rw [← Nat.cast_le (α := ℚ), ← mul_le_mul_iff_left₀ hten, scaledNumerator_eq, Nat.cast_mul,
    mul_right_comm (n : ℚ), mul_le_mul_iff_left₀ hd]

/-- A multiple of a power of ten lies in the interval; the model asks this on natural numbers. -/
def Holds (i : Interval) (k : Int) (n : Nat) : Prop :=
  if i.closed then
    scaledNumerator i.low i.exponent k ≤ n * scaledDenominator i.exponent k ∧
      n * scaledDenominator i.exponent k ≤ scaledNumerator i.high i.exponent k
  else
    scaledNumerator i.low i.exponent k < n * scaledDenominator i.exponent k ∧
      n * scaledDenominator i.exponent k < scaledNumerator i.high i.exponent k

theorem holds_iff : i.Holds k n ↔ i.Contains (n * 10 ^ k) := by
  unfold Holds Contains
  simp only [← not_le, scaledNumerator_le_iff, le_scaledNumerator_iff]

instance (i : Interval) (k : Int) (n : Nat) : Decidable (i.Holds k n) :=
  inferInstanceAs (Decidable (if i.closed then
    scaledNumerator i.low i.exponent k ≤ n * scaledDenominator i.exponent k ∧
      n * scaledDenominator i.exponent k ≤ scaledNumerator i.high i.exponent k
  else
    scaledNumerator i.low i.exponent k < n * scaledDenominator i.exponent k ∧
      n * scaledDenominator i.exponent k < scaledNumerator i.high i.exponent k))

/-- The point of a grid below the middle, or at it. -/
def lower (i : Interval) (k : Int) : Nat :=
  scaledNumerator i.middle i.exponent k / scaledDenominator i.exponent k

/-- One of the two points next to the middle is taken, when one is in the interval. -/
theorem point?_cases (i : Interval) (tie : Tie) (k : Int) :
    (∃ n, (n = i.lower k ∨ n = i.lower k + 1) ∧ i.Holds k n ∧ i.point? tie k = some n) ∨
      ¬ i.Holds k (i.lower k) ∧ ¬ i.Holds k (i.lower k + 1) ∧ i.point? tie k = none := by
  by_cases hlower : i.Holds k (i.lower k)
  · by_cases hupper : i.Holds k (i.lower k + 1) ∧
      tie.takesUpper (i.lower k)
        (scaledNumerator i.middle i.exponent k - i.lower k * scaledDenominator i.exponent k)
        ((i.lower k + 1) * scaledDenominator i.exponent k - scaledNumerator i.middle i.exponent k) = true
    · exact .inl ⟨_, .inr rfl, hupper.1, (if_pos hlower).trans (if_pos hupper)⟩
    · exact .inl ⟨_, .inl rfl, hlower, (if_pos hlower).trans (if_neg hupper)⟩
  · by_cases hupper : i.Holds k (i.lower k + 1)
    · exact .inl ⟨_, .inr rfl, hupper, (if_neg hlower).trans (if_pos hupper)⟩
    · exact .inr ⟨hlower, hupper, (if_neg hlower).trans (if_neg hupper)⟩

theorem contains_of_point? (h : i.point? tie k = some n) : i.Contains (n * 10 ^ k) := by
  rcases point?_cases i tie k with ⟨n', -, hholds, hpoint⟩ | ⟨-, -, hpoint⟩ <;> rw [hpoint] at h
  · obtain rfl := Option.some.inj h
    exact holds_iff.1 hholds
  · cases h

/-- The middle is in the interval. -/
def IsAround (i : Interval) : Prop :=
  i.low < i.middle ∧ i.middle < i.high

theorem IsAround.contains (hi : i.IsAround) : i.Contains (i.middle * 2 ^ i.exponent) := by
  have hunit : (0 : ℚ) < 2 ^ i.exponent := by positivity
  exact contains_of_lt (mul_lt_mul_of_pos_right (Nat.cast_lt.2 hi.1) hunit)
    (mul_lt_mul_of_pos_right (Nat.cast_lt.2 hi.2) hunit)

theorem lower_mul_le (i : Interval) (k : Int) : (i.lower k : ℚ) * 10 ^ k ≤ i.middle * 2 ^ i.exponent :=
  (le_scaledNumerator_iff ..).1 (Nat.div_mul_le_self ..)

theorem lt_lower_succ_mul (i : Interval) (k : Int) :
    (i.middle : ℚ) * 2 ^ i.exponent < (i.lower k + 1 : Nat) * 10 ^ k := by
  rw [← not_le, ← le_scaledNumerator_iff, not_le]
  exact Nat.lt_mul_of_div_lt (Nat.lt_succ_self _) (scaledDenominator_pos _ _)

/-- A grid with a point in the interval has one next to the middle. -/
theorem exists_point? (tie : Tie) (hi : i.IsAround) (h : i.Contains (n * 10 ^ k)) :
    ∃ n', i.point? tie k = some n' := by
  have hten : (0 : ℚ) < 10 ^ k := by positivity
  rcases point?_cases i tie k with ⟨n', -, -, hpoint⟩ | ⟨hlower, hupper, -⟩
  · exact ⟨n', hpoint⟩
  · exfalso
    rcases Nat.lt_or_ge (i.lower k) n with hlt | hle
    · refine hupper (holds_iff.2 (hi.contains.between h (lt_lower_succ_mul i k).le ?_))
      exact mul_le_mul_of_nonneg_right (Nat.cast_le.2 hlt) hten.le
    · refine hlower (holds_iff.2 (h.between hi.contains ?_ (lower_mul_le i k)))
      exact mul_le_mul_of_nonneg_right (Nat.cast_le.2 hle) hten.le

/-! ## The search -/

/-- When a grid that is tried has a point in the interval, the search ends at a point of the coarsest one. -/
theorem search_spec (tie : Tie) (hi : i.IsAround) {j : Int} (h : i.Contains (n * 10 ^ j)) :
    ∀ {steps : Nat} {k : Int}, j ≤ k → k < j + steps →
      ∃ n' k', i.search tie steps k = (n', k') ∧ j ≤ k' ∧ k' ≤ k ∧ i.Contains (n' * 10 ^ k') ∧
        ∀ k'', k' < k'' → k'' ≤ k → ∀ n'' : Nat, ¬ i.Contains (n'' * 10 ^ k'') := by
  intro steps
  induction steps with
  | zero =>
    intro k hjk hlt
    omega
  | succ steps ih =>
    intro k hjk hlt
    unfold search
    cases hpoint : i.point? tie k with
    | some found =>
      exact ⟨found, k, rfl, hjk, le_rfl, contains_of_point? hpoint, fun _ _ _ => by omega⟩
    | none =>
      have hnone : ∀ n'' : Nat, ¬ i.Contains (n'' * 10 ^ k) := by
        intro n'' hcontains
        obtain ⟨found, hfound⟩ := exists_point? tie hi hcontains
        rw [hpoint] at hfound
        cases hfound
      have hne : j ≠ k := by
        rintro rfl
        exact hnone n h
      obtain ⟨n', k', hsearch, hj, hk, hcontains, hcoarser⟩ := ih (k := k - 1) (by omega) (by omega)
      refine ⟨n', k', hsearch, hj, by omega, hcontains, fun k'' hlt' hle => ?_⟩
      rcases eq_or_ne k'' k with rfl | hk''
      · exact hnone
      · exact hcoarser k'' hlt' (by omega)

/-! ## The interval of a double -/

variable {b : Binary}

theorem isAround_ofBinary (h : b.mantissa ≠ 0) : (ofBinary b).IsAround := by
  unfold ofBinary IsAround
  dsimp only
  constructor
  · split <;> omega
  · omega

theorem low_pos (h : b.mantissa ≠ 0) : 0 < (ofBinary b).low := by
  unfold ofBinary
  dsimp only
  split <;> omega

theorem Contains.pos (h : (ofBinary b).Contains x) (hb : b.mantissa ≠ 0) : 0 < x := by
  refine lt_of_lt_of_le ?_ h.low_le
  have hlow : (0 : ℚ) < (ofBinary b).low := Nat.cast_pos.2 (low_pos hb)
  positivity

/-- The middle of the interval is the double. -/
theorem middle_ofBinary (b : Binary) :
    ((ofBinary b).middle : ℚ) * 2 ^ (ofBinary b).exponent = b.magnitude := by
  rw [Binary.magnitude]
  show ((4 * b.mantissa : Nat) : ℚ) * 2 ^ (b.exponent - 2) = _
  rw [zpow_sub₀ two_ne_zero]
  push_cast
  ring

theorem contains_magnitude (h : b.mantissa ≠ 0) : (ofBinary b).Contains b.magnitude := by
  rw [← middle_ofBinary]
  exact (isAround_ofBinary h).contains

/-- The binary places before the point of a number. -/
def width (b : Binary) : Int :=
  b.mantissa.log2 + 1 + b.exponent

theorem Contains.lt_of_width (h : (ofBinary b).Contains x) : x < 2 ^ width b := by
  have hlog : b.mantissa + 1 ≤ 2 ^ (b.mantissa.log2 + 1) := Nat.lt_log2_self
  have hhigh : ((ofBinary b).high : ℚ) * 2 ^ (ofBinary b).exponent < (b.mantissa + 1) * 2 ^ b.exponent := by
    show ((4 * b.mantissa + 2 : Nat) : ℚ) * 2 ^ (b.exponent - 2) < _
    have hunit : (0 : ℚ) < 2 ^ b.exponent := by positivity
    rw [zpow_sub₀ two_ne_zero]
    push_cast
    linarith
  calc x ≤ (ofBinary b).high * 2 ^ (ofBinary b).exponent := h.le_high
    _ < (b.mantissa + 1) * 2 ^ b.exponent := hhigh
    _ ≤ 2 ^ (b.mantissa.log2 + 1) * 2 ^ b.exponent := by
      refine mul_le_mul_of_nonneg_right ?_ (by positivity)
      exact_mod_cast hlog
    _ = 2 ^ width b := by
      rw [width, zpow_add₀ two_ne_zero, ← zpow_natCast]
      push_cast
      rfl

/-- What lies on no coarser grid has no zero at its end. -/
theorem mod_ten_ne_zero (h : i.Contains (n * 10 ^ k))
    (hcoarser : ∀ n' : Nat, ¬ i.Contains (n' * 10 ^ (k + 1))) : n % 10 ≠ 0 := by
  intro hzero
  refine hcoarser (n / 10) ?_
  have hn : (n : ℚ) = (n / 10 : Nat) * 10 := by
    exact_mod_cast (Nat.div_mul_cancel (Nat.dvd_of_mod_eq_zero hzero)).symm
  rwa [zpow_add_one₀ (by norm_num), mul_comm ((10 : ℚ) ^ k), ← mul_assoc, ← hn]

/-- The first grid that is tried is too coarse for a number of at most a tenth. -/
theorem pow_lt_first {w : Int} (hlow : -20 < w) (hhigh : w * 30103 / 100000 + 2 < 0) :
    (2 : ℚ) ^ w < 10 ^ (w * 30103 / 100000 + 2) := by
  have hw : w < -6 := by omega
  interval_cases w <;> norm_num

end Interval

section Shortest

open VectorIcon.Number.Interval

variable {b : Binary}

/-- A multiple of a power of ten in the interval is not below that power. -/
theorem pow_lt_of_contains {n : Nat} {k : Int} (h : (ofBinary b).Contains (n * 10 ^ k))
    (hb : b.mantissa ≠ 0) : (10 : ℚ) ^ k < 2 ^ width b := by
  have hten : (0 : ℚ) < 10 ^ k := by positivity
  have hn : (1 : ℚ) ≤ n := by
    exact_mod_cast Nat.cast_pos.1 (pos_of_mul_pos_left (h.pos hb) hten.le)
  calc (10 : ℚ) ^ k = 1 * 10 ^ k := (one_mul _).symm
    _ ≤ n * 10 ^ k := mul_le_mul_of_nonneg_right hn hten.le
    _ < 2 ^ width b := h.lt_of_width

/-- A power of ten that has fewer digits than a power of two has bits. -/
theorem ten_pow_le {j e : Nat} (h : 10 * j ≤ 3 * e) : 10 ^ j ≤ 2 ^ e := by
  refine le_of_pow_le_pow_left₀ (n := 3) (by decide) (by positivity) ?_
  calc (10 ^ j) ^ 3 = (10 ^ 3) ^ j := by rw [← pow_mul, ← pow_mul, Nat.mul_comm]
    _ ≤ (2 ^ 10) ^ j := Nat.pow_le_pow_left (by decide) j
    _ = 2 ^ (10 * j) := (pow_mul ..).symm
    _ ≤ 2 ^ (3 * e) := Nat.pow_le_pow_right (by decide) h
    _ = (2 ^ e) ^ 3 := by rw [← pow_mul, Nat.mul_comm]

/-- A whole number has a point of every grid that is no coarser than half its last binary place. -/
theorem exists_contains_of_nonneg {e j : Nat} (hmantissa : b.mantissa ≠ 0) (hexponent : b.exponent = e)
    (h : 10 * j ≤ 3 * (e - 1)) : ∃ n : Nat, (ofBinary b).Contains (n * 10 ^ (j : Int)) := by
  let whole := b.mantissa * 2 ^ e
  let n := (whole + (10 ^ j - 1)) / 10 ^ j
  have hpos : 0 < 10 ^ j := by positivity
  have hle : n * 10 ^ j ≤ whole + (10 ^ j - 1) := Nat.div_mul_le_self ..
  have hge : whole ≤ n * 10 ^ j := by
    have hlt : whole + (10 ^ j - 1) < (n + 1) * 10 ^ j := Nat.lt_mul_of_div_lt (Nat.lt_succ_self _) hpos
    rw [Nat.succ_mul] at hlt
    omega
  have hhalf : 2 * (10 ^ j - 1) < 2 ^ e := by
    have hpow := ten_pow_le h
    cases e with
    | zero =>
      obtain rfl : j = 0 := by omega
      decide
    | succ e =>
      rw [Nat.succ_sub_one] at hpow
      rw [Nat.pow_succ]
      omega
  have hmagnitude : b.magnitude = (whole : Nat) := by
    rw [Binary.magnitude, hexponent, zpow_natCast, Nat.cast_mul, Nat.cast_pow, Nat.cast_ofNat]
  have hhigh : ((ofBinary b).high : ℚ) * 2 ^ (ofBinary b).exponent = (2 * whole + 2 ^ e : Nat) / 2 := by
    show ((4 * b.mantissa + 2 : Nat) : ℚ) * 2 ^ (b.exponent - 2) = _
    rw [hexponent, zpow_sub₀ two_ne_zero, zpow_natCast]
    push_cast [whole]
    ring
  refine ⟨n, contains_of_lt ?_ ?_⟩
  · calc ((ofBinary b).low : ℚ) * 2 ^ (ofBinary b).exponent
        < (ofBinary b).middle * 2 ^ (ofBinary b).exponent := by
          refine mul_lt_mul_of_pos_right (Nat.cast_lt.2 (isAround_ofBinary hmantissa).1) (by positivity)
      _ = (whole : Nat) := (middle_ofBinary b).trans hmagnitude
      _ ≤ n * 10 ^ (j : Int) := by exact_mod_cast hge
  · have hlt : 2 * (n * 10 ^ j) < 2 * whole + 2 ^ e := by omega
    rw [hhigh, lt_div_iff₀ two_pos, zpow_natCast, mul_comm]
    exact_mod_cast hlt

/-- The first grid that is tried. -/
def firstGrid (b : Binary) : Int :=
  width b * 30103 / 100000 + 2

/-- With a point on a grid that is tried the search ends on no finer one, and its digits end with a zero only
on the first. -/
theorem shortest_of_contains (tie : Tie) (hmantissa : b.mantissa ≠ 0) {N : Nat} {j : Int}
    (hN : (ofBinary b).Contains (N * 10 ^ j)) (hfirst : j ≤ firstGrid b) (hlast : firstGrid b < j + 40) :
    ∃ n k, shortest tie b = (n, k) ∧ n ≠ 0 ∧ j ≤ k ∧ (ofBinary b).Contains (n * 10 ^ k) ∧
      (k = firstGrid b ∨ n % 10 ≠ 0) := by
  obtain ⟨n, k, hsearch, hk, hle, hcontains, hcoarser⟩ :=
    search_spec tie (isAround_ofBinary hmantissa) hN hfirst hlast
  refine ⟨n, k, hsearch, ?_, hk, hcontains, ?_⟩
  · rintro rfl
    have hpos := hcontains.pos hmantissa
    rw [Nat.cast_zero, zero_mul] at hpos
    exact lt_irrefl _ hpos
  · refine hle.eq_or_lt.imp_right fun hlt => ?_
    exact mod_ten_ne_zero hcontains (hcoarser (k + 1) (by omega) (by omega))

/-- A whole number is written without places. -/
theorem shortest_of_nonneg (tie : Tie) (hb : b.IsDouble) (hmantissa : b.mantissa ≠ 0)
    (hexponent : 0 ≤ b.exponent) : (shortest tie b).1 ≠ 0 ∧ 0 ≤ (shortest tie b).2 := by
  have hfirst : firstGrid b = (b.mantissa.log2 + 1 + b.exponent) * 30103 / 100000 + 2 := rfl
  have hlog : b.mantissa.log2 < 53 := (Nat.log2_lt hmantissa).2 hb.mantissa_lt
  have hle := hb.exponent_le
  obtain ⟨e, he⟩ := Int.eq_ofNat_of_zero_le hexponent
  obtain ⟨N, hN⟩ := exists_contains_of_nonneg hmantissa he (j := (firstGrid b - 39).toNat) (by omega)
  obtain ⟨n, k, hshortest, hn, hk, -⟩ := shortest_of_contains tie hmantissa hN (by omega) (by omega)
  rw [hshortest]
  exact ⟨hn, by dsimp only; omega⟩

/-- A number with a place after the point that has a multiple of a millionth in its interval is written with
at most six places, and the last of them is no zero. -/
theorem shortest_of_neg (tie : Tie) (hb : b.IsDouble) (hmantissa : b.mantissa ≠ 0)
    (hexponent : b.exponent < 0) {N : Nat} (hN : (ofBinary b).Contains (N * 10 ^ (-6 : Int))) :
    (shortest tie b).1 ≠ 0 ∧ -6 ≤ (shortest tie b).2 ∧
      ((shortest tie b).2 < 0 → (shortest tie b).1 % 10 ≠ 0) := by
  have hfirst : firstGrid b = width b * 30103 / 100000 + 2 := rfl
  have hwidth : width b = b.mantissa.log2 + 1 + b.exponent := rfl
  have hlog : b.mantissa.log2 < 53 := (Nat.log2_lt hmantissa).2 hb.mantissa_lt
  have hlow : -20 < width b := by
    by_contra hle
    have hpow : (2 : ℚ) ^ width b ≤ 2 ^ (-20 : Int) := zpow_le_zpow_right₀ (by norm_num) (by omega)
    have hsmall : (2 : ℚ) ^ (-20 : Int) < 10 ^ (-6 : Int) := by norm_num
    exact lt_irrefl _ ((pow_lt_of_contains hN hmantissa).trans (hpow.trans_lt hsmall))
  obtain ⟨n, k, hshortest, hn, hk, hcontains, hdigit⟩ :=
    shortest_of_contains tie hmantissa hN (by omega) (by omega)
  rw [hshortest]
  refine ⟨hn, hk, fun hneg => hdigit.resolve_left ?_⟩
  rintro rfl
  exact lt_irrefl _ ((pow_lt_of_contains hcontains hmantissa).trans (pow_lt_first hlow hneg))

/-- A double with a multiple of a millionth in its interval is written with at most six places, and the last
of them is no zero. -/
theorem shortest_places (tie : Tie) (hb : b.IsDouble) (hmantissa : b.mantissa ≠ 0) {N : Nat}
    (hN : (ofBinary b).Contains (N * 10 ^ (-6 : Int))) :
    (shortest tie b).1 ≠ 0 ∧ -6 ≤ (shortest tie b).2 ∧
      ((shortest tie b).2 < 0 → (shortest tie b).1 % 10 ≠ 0) := by
  by_cases hexponent : b.exponent < 0
  · exact shortest_of_neg tie hb hmantissa hexponent hN
  · obtain ⟨hn, hwhole⟩ := shortest_of_nonneg tie hb hmantissa (by omega)
    exact ⟨hn, by omega, fun hneg => by omega⟩

end Shortest

end VectorIcon.Number
