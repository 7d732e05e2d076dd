import VectorIcon.Proofs.Number.Exact

/-!
# Sums of doubles

Finite doubles are added exactly and rounded once. So their sum is finite exactly when the exact sum is below
the limit, and then it is near the exact sum (`isRounded_add`). A difference is the sum with the negated double
(`sub_eq_add_negated`).
-/

namespace VectorIcon.Number

open Float.Model UnpackedFloat

variable {v w : Float} {m : Nat} {e : Int}

/-! ## Rounding without a loss before it -/

/-- A mantissa that is too short for a double is filled up with zeros. -/
theorem exists_round_eq (s : Sign) (hm : m ≠ 0) :
    ∃ k : Nat, UnpackedFloat.round .binary64 s m e =
        roundWithAccuracy .binary64 s (m * 2 ^ k) (e - k) .exact ∧
      e - k ≤ target (m * 2 ^ k) (e - k) ∧ ((m * 2 ^ k : Nat) : ℚ) * 2 ^ (e - k) = m * 2 ^ e := by
  refine ⟨(e - target m e).toNat, ?_, ?_, ?_⟩
  · unfold UnpackedFloat.round decreaseExponent
    dsimp only
    rw [targetExponent_eq, Nat.shiftLeft_eq]
  · rw [target_mul_two_pow hm]
    omega
  · rw [zpow_sub₀ two_ne_zero, zpow_natCast]
    push_cast
    field_simp

theorem exists_ofFloat?_round (s : Sign) (hm : m ≠ 0) (hlarge : m * 2 ^ e < limit) :
    ∃ b, Binary.ofFloat? (Float.ofModel (Float.Model.pack (UnpackedFloat.round .binary64 s m e))) = some b ∧
      b.negative = (s == .negative) ∧ |b.magnitude - m * 2 ^ e| ≤ 2 ^ (970 : Int) := by
  obtain ⟨k, hround, htarget, hvalue⟩ := exists_round_eq (e := e) s hm
  rw [hround]
  rw [← hvalue] at hlarge ⊢
  obtain ⟨b, hb, hnegative, hnear, -⟩ := exists_roundWithAccuracy (s := s) (leaves_exact _) htarget hlarge
  exact ⟨b, hb, hnegative, hnear⟩

theorem ofFloat?_round_of_le (s : Sign) (hm : m ≠ 0) (hlarge : limit ≤ m * 2 ^ e) :
    Binary.ofFloat? (Float.ofModel (Float.Model.pack (UnpackedFloat.round .binary64 s m e))) = none := by
  obtain ⟨k, hround, htarget, hvalue⟩ := exists_round_eq (e := e) s hm
  rw [hround]
  rw [← hvalue] at hlarge
  exact roundWithAccuracy_of_le (leaves_exact _) htarget hlarge

/-- A double is the rounding of a number: it is finite exactly when the number is below the limit, and then it
is near it. -/
structure IsRounded (v : Float) (x : ℚ) : Prop where
  isFinite_iff : isFinite v = true ↔ |x| < limit
  near : |x| < limit → |exact v - x| ≤ 2 ^ (970 : Int)

/-- A double is the rounding of the number that it is. -/
theorem isRounded_exact (h : isFinite v = true) : IsRounded v (exact v) := by
  refine ⟨iff_of_true h (abs_exact_lt h), fun _ => ?_⟩
  rw [sub_self, abs_zero]
  positivity

theorem isRounded_zero (s : Sign) : IsRounded (Float.ofModel (Float.Model.pack (.zero s))) 0 := by
  have hzero := Binary.ofFloat?_pack_zero s
  have hrounded := isRounded_exact (Option.isSome_iff_exists.2 ⟨_, hzero⟩)
  rwa [exact_eq_zero hzero rfl] at hrounded

theorem isRounded_round (s : Sign) (hm : m ≠ 0) :
    IsRounded (Float.ofModel (Float.Model.pack (UnpackedFloat.round .binary64 s m e)))
      ((s.apply m : Int) * 2 ^ e) := by
  have habs : |((s.apply m : Int) : ℚ) * 2 ^ e| = m * 2 ^ e := by
    rw [abs_mul, abs_of_pos (by positivity : (0 : ℚ) < 2 ^ e)]
    cases s <;> simp [Sign.apply]
  have hnear (hlarge : (m : ℚ) * 2 ^ e < limit) :
      isFinite (Float.ofModel (Float.Model.pack (UnpackedFloat.round .binary64 s m e))) = true ∧
        |exact (Float.ofModel (Float.Model.pack (UnpackedFloat.round .binary64 s m e))) -
          (s.apply m : Int) * 2 ^ e| ≤ 2 ^ (970 : Int) := by
    obtain ⟨b, hb, hnegative, hnear⟩ := exists_ofFloat?_round s hm hlarge
    refine ⟨Option.isSome_iff_exists.2 ⟨b, hb⟩, ?_⟩
    rw [exact_of_ofFloat? hb, Binary.signed, hnegative]
    rw [Binary.magnitude] at hnear
    cases s with
    | positive => simpa [Sign.apply] using hnear
    | negative =>
      rw [abs_sub_comm] at hnear
      simpa [Sign.apply, neg_add_eq_sub] using hnear
  rw [← habs] at hnear
  refine ⟨⟨fun hfinite => ?_, fun hlarge => (hnear hlarge).1⟩, fun hlarge => (hnear hlarge).2⟩
  by_contra hlarge
  rw [habs, not_lt] at hlarge
  rw [isFinite, ofFloat?_round_of_le s hm hlarge] at hfinite
  cases hfinite

/-- A signed mantissa is rounded as the number that it is. -/
theorem isRounded_normalize (n e : Int) (s : Sign) :
    IsRounded (Float.ofModel (Float.Model.pack (UnpackedFloat.normalize .binary64 n e s))) (n * 2 ^ e) := by
  unfold UnpackedFloat.normalize
  rcases lt_trichotomy n 0 with hn | rfl | hn
  · rw [compare_lt_iff_lt.2 hn]
    have hrounded := isRounded_round (e := e) .negative (m := (-n).toNat) (by omega)
    have hvalue : Sign.apply .negative (-n).toNat = n := by
      rw [Sign.apply]
      omega
    rwa [hvalue] at hrounded
  · rw [compare_eq_iff_eq.2 rfl, Int.cast_zero, zero_mul]
    exact isRounded_zero s
  · rw [compare_gt_iff_gt.2 hn]
    have hrounded := isRounded_round (e := e) .positive (m := n.toNat) (by omega)
    have hvalue : Sign.apply .positive n.toNat = n := by
      rw [Sign.apply]
      omega
    rwa [hvalue] at hrounded

/-! ## Sums and differences -/

theorem apply_decreaseExponent (s : Sign) (m : Nat) {e low : Int} (h : low ≤ e) :
    ((s.apply (decreaseExponent m e low).1 : Int) : ℚ) * 2 ^ low = (s.apply m : Int) * 2 ^ e := by
  have hpow : (2 : ℚ) ^ e = 2 ^ (e - low).toNat * 2 ^ low := by
    rw [← zpow_natCast, ← zpow_add₀ two_ne_zero]
    congr 1
    omega
  unfold decreaseExponent
  dsimp only
  rw [Nat.shiftLeft_eq, hpow]
  cases s <;> simp [Sign.apply] <;> ring

theorem isRounded_add (hv : isFinite v = true) (hw : isFinite w = true) :
    IsRounded (v + w) (exact v + exact w) := by
  have hadd : v + w = Float.ofModel (Float.Model.pack (add .binary64 v.toModel.unpack w.toModel.unpack)) := rfl
  obtain ⟨hx, s, hs⟩ | ⟨s, m, e, hm, hs, hx, -⟩ := unpack_of_isFinite hv <;>
    obtain ⟨hy, t, ht⟩ | ⟨t, n, k, hn, ht, hy, -⟩ := unpack_of_isFinite hw
  · rw [hadd, hs, ht, hx, hy, add_zero, UnpackedFloat.add]
    split <;> exact isRounded_zero _
  · have hsum : v + w = w := by
      rw [hadd, hs, ht]
      show Float.ofModel (Float.Model.pack (.finite t n k hn)) = w
      rw [← ht, ofModel_pack_unpack]
    rw [hsum, hx, zero_add]
    exact isRounded_exact hw
  · have hsum : v + w = v := by
      rw [hadd, hs, ht]
      show Float.ofModel (Float.Model.pack (.finite s m e hm)) = v
      rw [← hs, ofModel_pack_unpack]
    rw [hsum, hy, add_zero]
    exact isRounded_exact hv
  · rw [hadd, hs, ht, hx, hy, ← apply_decreaseExponent s m (min_le_left e k),
      ← apply_decreaseExponent t n (min_le_right e k), ← add_mul, ← Int.cast_add]
    exact isRounded_normalize _ _ _

theorem isFinite_neg (h : isFinite v = true) : isFinite (-v) = true := by
  obtain ⟨b, hb⟩ := exists_ofFloat? h
  exact Option.isSome_iff_exists.2 ⟨_, ofFloat?_neg hb⟩

theorem exact_neg (h : isFinite v = true) : exact (-v) = -exact v := by
  obtain ⟨b, hb⟩ := exists_ofFloat? h
  rw [exact_of_ofFloat? (ofFloat?_neg hb), exact_of_ofFloat? hb, Binary.signed, Binary.signed]
  cases b.negative <;> simp

theorem unpack_neg (h : isFinite v = true) : (-v).toModel.unpack = neg v.toModel.unpack := by
  show (Float.Model.pack (neg v.toModel.unpack)).unpack = _
  rcases unpack_of_isFinite h with ⟨-, s, hs⟩ | ⟨s, m, e, hm, hs, -, hdouble⟩
  · rw [hs]
    cases s <;> rfl
  · rw [hs]
    exact Binary.unpack_pack_finite hm ⟨hdouble.1, hdouble.2, hdouble.3, hdouble.4⟩

/-- A finite double is taken away by adding its negation. -/
theorem sub_eq_add_negated (h : isFinite w = true) : v - w = v + -w := by
  have hsign (s : Sign) (n : Int) : (-s).apply n = -s.apply n := by
    cases s <;> simp [Sign.apply]
  have hsub : UnpackedFloat.sub .binary64 v.toModel.unpack w.toModel.unpack =
      UnpackedFloat.add .binary64 v.toModel.unpack (neg w.toModel.unpack) := by
    rcases unpack_of_isFinite h with ⟨-, t, ht⟩ | ⟨t, n, k, hn, ht, -⟩
    · rw [ht]
      cases v.toModel.unpack <;> rfl
    · rw [ht]
      cases v.toModel.unpack with
      | finite s m e hm =>
        show UnpackedFloat.normalize .binary64 (s.apply _ - t.apply _) _ _ =
          UnpackedFloat.normalize .binary64 (s.apply _ + (-t).apply _) _ _
        rw [hsign, ← Int.sub_eq_add_neg]
      | _ => rfl
  show Float.ofModel (Float.Model.pack (UnpackedFloat.sub .binary64 v.toModel.unpack w.toModel.unpack)) =
    Float.ofModel (Float.Model.pack (UnpackedFloat.add .binary64 v.toModel.unpack (-w).toModel.unpack))
  rw [hsub, unpack_neg h]

theorem isRounded_sub (hv : isFinite v = true) (hw : isFinite w = true) :
    IsRounded (v - w) (exact v - exact w) := by
  rw [sub_eq_add_negated hw, sub_eq_add_neg, ← exact_neg hw]
  exact isRounded_add hv (isFinite_neg hw)

end VectorIcon.Number
