import VectorIcon.Proofs.Number.Rounding
import VectorIcon.Proofs.Number.Value

/-!
# Whole numbers as doubles

A number that has all its bits in a double is not changed by rounding (`ofFloat?_roundWithAccuracy`), so a
whole number below `2 ^ 53` is the double that its digits are read as (`exists_read?_of_isWhole`), with
either sign.
-/

namespace VectorIcon.Number

open Text Float.Model UnpackedFloat

variable {v : Float} {b : Binary} {s : Sign} {m n : Nat} {e : Int}

/-! ## Rounding without a rest -/

theorem eq_of_isNearest {k : Nat} (h : IsNearest n k) : n = k := by
  have hnear : (n : ℚ) - 1 / 2 ≤ k ∧ (k : ℚ) ≤ n + 1 / 2 := by
    unfold IsNearest at h
    split at h
    · exact h
    · exact ⟨h.1.le, h.2.le⟩
  have hlow : 2 * n ≤ 2 * k + 1 := by
    have hcast : (2 * n : ℚ) ≤ 2 * k + 1 := by linarith [hnear.1]
    exact_mod_cast hcast
  have hhigh : 2 * k ≤ 2 * n + 1 := by
    have hcast : (2 * k : ℚ) ≤ 2 * n + 1 := by linarith [hnear.2]
    exact_mod_cast hcast
  omega

theorem log2_mul_two_pow (hm : m ≠ 0) (k : Nat) : (m * 2 ^ k).log2 = m.log2 + k := by
  rw [Nat.log2_eq_iff (Nat.mul_ne_zero hm (Nat.two_pow_pos k).ne'), Nat.add_right_comm, Nat.pow_add, Nat.pow_add]
  exact ⟨Nat.mul_le_mul_right _ (Nat.log2_self_le hm), Nat.mul_lt_mul_of_pos_right Nat.lt_log2_self
    (Nat.two_pow_pos k)⟩

/-- Zeros at the end of a mantissa do not move the exponent of its double. -/
theorem target_mul_two_pow (hm : m ≠ 0) (e : Int) (k : Nat) : target (m * 2 ^ k) (e - k) = target m e := by
  unfold target
  rw [log2_mul_two_pow hm, Nat.cast_add]
  congr 1
  omega

theorem Binary.IsDouble.target_eq (h : b.IsDouble) : target b.mantissa b.exponent = b.exponent := by
  refine Int.le_antisymm (target_le h.mantissa_lt h.le_exponent) ?_
  rcases h.normal with hleast | hfull
  · rw [hleast]
    exact le_max_right ..
  · have hlog : 52 ≤ b.mantissa.log2 := (Nat.le_log2 (by omega)).2 hfull
    rw [target]
    omega

/-- A double is not changed by rounding, whatever zeros its mantissa is given at the end. -/
theorem ofFloat?_roundWithAccuracy (hm : 0 < m) (h : Binary.IsDouble ⟨s == .negative, m, e⟩) (k : Nat) :
    Binary.ofFloat? (Float.ofModel (Float.Model.pack
      (roundWithAccuracy .binary64 s (m * 2 ^ k) (e - k) .exact))) = some ⟨s == .negative, m, e⟩ := by
  have htarget : target (m * 2 ^ k) (e - k) = e := (target_mul_two_pow hm.ne' e k).trans h.target_eq
  have hshift : (target (m * 2 ^ k) (e - k) - (e - k)).toNat = k := by omega
  have hle : e - k ≤ target (m * 2 ^ k) (e - k) := by omega
  have hvalue : ((m * 2 ^ k : Nat) : ℚ) / 2 ^ k = m := by
    push_cast
    exact mul_div_cancel_right₀ _ (by positivity)
  have hrounding := isRounding_of_leaves (leaves_exact (m * 2 ^ k)) hle
  rw [hshift, hvalue] at hrounding
  rw [roundWithAccuracy_eq s hle, hshift, eq_of_isNearest hrounding.isNearest, htarget,
    carried_of_lt s hm h.mantissa_lt h.le_exponent, Binary.ofFloat?_pack_finite hm h]

/-! ## Signs and units -/

/-- Multiplication with one changes no double. -/
theorem ofFloat?_mul_one (h : Binary.ofFloat? v = some b) :
    Binary.ofFloat? (v * Float.ofBits 0x3FF0000000000000) = some b := by
  have hmul : v * Float.ofBits 0x3FF0000000000000 = Float.ofModel (Float.Model.pack
      (mul .binary64 v.toModel.unpack (.finite .positive (2 ^ 52) (-52) (by decide)))) := rfl
  have hdouble := Binary.isDouble_of_ofFloat? h
  have hsign (s : Sign) : s * .positive = s := by cases s <;> rfl
  rw [hmul]
  obtain ⟨-, s, hunpack, rfl⟩ | ⟨s, hm, hunpack, hnegative⟩ := unpack_of_ofFloat? h
  · rw [hunpack]
    show Binary.ofFloat? (Float.ofModel (Float.Model.pack (.zero (s * .positive)))) = _
    rw [Binary.ofFloat?_pack_zero, hsign]
  · obtain ⟨negative, m, e⟩ := b
    obtain rfl := hnegative
    rw [hunpack]
    show Binary.ofFloat? (Float.ofModel (Float.Model.pack
      (roundWithAccuracy .binary64 (s * .positive) (m * 2 ^ 52) (e - (52 : Nat)) .exact))) = _
    rw [hsign, ofFloat?_roundWithAccuracy hm hdouble]

theorem ofFloat?_neg (h : Binary.ofFloat? v = some b) :
    Binary.ofFloat? (-v) = some ⟨!b.negative, b.mantissa, b.exponent⟩ := by
  have hneg : -v = Float.ofModel (Float.Model.pack (neg v.toModel.unpack)) := rfl
  have hdouble := Binary.isDouble_of_ofFloat? h
  have hsign (s : Sign) : (-s == .negative) = !(s == .negative) := by cases s <;> rfl
  rw [hneg]
  obtain ⟨-, s, hunpack, rfl⟩ | ⟨s, hm, hunpack, hnegative⟩ := unpack_of_ofFloat? h
  · rw [hunpack]
    show Binary.ofFloat? (Float.ofModel (Float.Model.pack (.zero (-s)))) = _
    rw [Binary.ofFloat?_pack_zero, hsign]
  · have hdouble : Binary.IsDouble ⟨-s == .negative, b.mantissa, b.exponent⟩ :=
      ⟨hdouble.mantissa_lt, hdouble.le_exponent, hdouble.exponent_le, hdouble.normal⟩
    rw [hunpack]
    show Binary.ofFloat? (Float.ofModel (Float.Model.pack (.finite (-s) b.mantissa b.exponent hm))) = _
    rw [Binary.ofFloat?_pack_finite hm hdouble, hsign, hnegative]

/-! ## Whole numbers -/

/-- The zeros that a mantissa below `2 ^ 53` is filled up with. -/
def fill (m : Nat) : Nat :=
  52 - m.log2

theorem isDouble_whole (negative : Bool) (hm : 0 < m) (hlt : m < 2 ^ 53) :
    Binary.IsDouble ⟨negative, m * 2 ^ fill m, -fill m⟩ := by
  have hlog : m.log2 < 53 := (Nat.log2_lt hm.ne').2 hlt
  have hne : m * 2 ^ fill m ≠ 0 := (Nat.mul_pos hm (Nat.two_pow_pos _)).ne'
  have hfull : (m * 2 ^ fill m).log2 = 52 := by
    rw [log2_mul_two_pow hm.ne', fill]
    omega
  refine ⟨(Nat.log2_lt hne).1 (by omega), ?_, ?_, .inr ((Nat.le_log2 hne).1 hfull.ge)⟩
  · dsimp only [fill]
    omega
  · dsimp only
    omega

theorem ofFloat?_toFloat (hm : 0 < m) (hlt : m < 2 ^ 53) :
    Binary.ofFloat? m.toUInt64.toFloat = some ⟨false, m * 2 ^ fill m, -fill m⟩ := by
  have hlog : m.log2 < 53 := (Nat.log2_lt hm.ne').2 hlt
  have htoNat : m.toUInt64.toNat = m := UInt64.toNat_ofNat_of_lt' (hlt.trans (by decide))
  have hcompare : compare (m : Int) 0 = .gt := compare_gt_iff_gt.2 (Int.natCast_pos.2 hm)
  have hround : UnpackedFloat.ofUInt64 .binary64 m.toUInt64 = UnpackedFloat.round .binary64 .positive m 0 := by
    show normalize .binary64 (m.toUInt64.toNat : Int) 0 .positive = _
    rw [htoNat, UnpackedFloat.normalize, hcompare]
    rfl
  have htarget : (0 - target m 0).toNat = fill m := by
    rw [target, fill]
    omega
  have hdecrease : decreaseExponent m 0 (target m 0) = (m * 2 ^ fill m, -(fill m : Int)) := by
    rw [decreaseExponent, htarget, Nat.shiftLeft_eq, Int.zero_sub]
  have hexact := ofFloat?_roundWithAccuracy (Nat.mul_pos hm (Nat.two_pow_pos _))
    (isDouble_whole (Sign.positive == .negative) hm hlt) 0
  rw [Nat.pow_zero, Nat.mul_one, Nat.cast_zero, Int.sub_zero] at hexact
  rw [UInt64.toFloat, Float.Model.ofUInt64, hround, UnpackedFloat.round, targetExponent_eq, hdecrease]
  exact hexact

/-- A whole number that fits the mantissa is the double of its digits. -/
theorem ofFloat?_nearestDouble (hm : 0 < m) (hlt : m < 2 ^ 53) :
    Binary.ofFloat? (Numeral.nearestDouble m 0) = some ⟨false, m * 2 ^ fill m, -fill m⟩ := by
  have hwidth : (Nat.toDigits 10 m).length ≤ 16 :=
    (Nat.length_toDigits_le_iff (by decide) (by decide)).2 (hlt.trans (by decide))
  have hscientific : Float.ofScientific m false 0 = m.toUInt64.toFloat * Float.ofBits 0x3FF0000000000000 := by
    unfold Float.ofScientific
    rw [dif_pos ⟨hlt, by decide⟩]
    rfl
  have hnearest : Numeral.nearestDouble m 0 = Float.ofScientific m false 0 := by
    unfold Numeral.nearestDouble
    dsimp only
    rw [if_neg hm.ne', if_neg (by omega), if_neg (by omega)]
    rfl
  rw [hnearest, hscientific, ofFloat?_mul_one (ofFloat?_toFloat hm hlt)]

theorem roundMagnitude_whole (negative : Bool) (m : Nat) :
    Binary.roundMagnitude ⟨negative, m * 2 ^ fill m, -fill m⟩ = m := by
  unfold Binary.roundMagnitude
  dsimp only
  rw [Int.natAbs_neg, Int.natAbs_natCast]
  split
  · have hfactor : 2 * (m * 2 ^ fill m) + 1 <<< fill m = 2 ^ fill m * (2 * m + 1) := by
      rw [Nat.one_shiftLeft]
      ring
    rw [hfactor, Nat.shiftRight_eq_div_pow, Nat.pow_succ, Nat.mul_div_mul_left _ _ (Nat.two_pow_pos _)]
    omega
  · next hfill =>
    have hzero : fill m = 0 := by omega
    rw [hzero, Nat.pow_zero, Nat.mul_one, Nat.shiftLeft_zero]

theorem exists_nearestDouble (hlt : m < 2 ^ 53) :
    ∃ mantissa exponent, Binary.ofFloat? (Numeral.nearestDouble m 0) = some ⟨false, mantissa, exponent⟩ ∧
      ∀ negative, Binary.roundMagnitude ⟨negative, mantissa, exponent⟩ = m := by
  rcases Nat.eq_zero_or_pos m with rfl | hm
  · exact ⟨0, -1074, by decide +kernel, by decide⟩
  · exact ⟨_, _, ofFloat?_nearestDouble hm hlt, (roundMagnitude_whole · m)⟩

/-! ## Whole numbers as text -/

/-- The text writes a whole number: a sign, perhaps none, and digits. -/
inductive IsWhole : List Char → Int → Prop
  | mk {sign negative digits} : IsSign sign negative → digits ≠ [] → IsDigits digits →
      IsWhole (sign ++ digits) (if negative then -(decimalNumber digits : Int) else decimalNumber digits)

theorem isWhole_toString (n : Int) : IsWhole (toString n).toList n := by
  rw [Int.toString_eq_repr, Int.repr_eq_if]
  have hdigits (m : Nat) : m.repr.toList = Nat.toDigits 10 m := by
    rw [Nat.repr_eq_ofList_toDigits, String.toList_ofList]
  split
  · next hsign =>
    have hwhole := IsWhole.mk .none Nat.toDigits_ne_nil (isDigits_toDigits n.toNat)
    rw [decimalNumber_toDigits, List.nil_append, if_neg Bool.false_ne_true, Int.toNat_of_nonneg hsign] at hwhole
    rwa [hdigits]
  · next hsign =>
    have hwhole := IsWhole.mk .minus Nat.toDigits_ne_nil (isDigits_toDigits (-n).toNat)
    rw [decimalNumber_toDigits, if_pos rfl, Int.toNat_of_nonneg (by omega), Int.neg_neg] at hwhole
    rwa [String.toList_append, hdigits]

/-- Whole numbers that fit a mantissa are read as they are written. -/
theorem exists_read?_of_isWhole {text : List Char} {n : Int} (h : IsWhole text n) (hlt : n.natAbs < 2 ^ 53) :
    ∃ v, read? text = some v ∧ nearestWhole? v = some n := by
  obtain @⟨sign, negative, digits, hsign, hne, hdigits⟩ := h
  have hspells := Spells.mk hsign (.whole hne hdigits) .none
  rw [List.append_nil] at hspells
  have hmagnitude : decimalNumber digits < 2 ^ 53 := by
    cases negative with
    | false => exact hlt
    | true => rwa [if_pos rfl, Int.natAbs_neg] at hlt
  obtain ⟨mantissa, exponent, hnearest, hround⟩ := exists_nearestDouble hmagnitude
  have hvalue : Numeral.toFloat ⟨negative, digits, [], 0⟩ =
      if negative then -Numeral.nearestDouble (decimalNumber digits) 0
      else Numeral.nearestDouble (decimalNumber digits) 0 := by
    have hall : Numeral.digits ⟨negative, digits, [], 0⟩ = decimalNumber digits :=
      congrArg decimalNumber (List.append_nil digits)
    rw [Numeral.toFloat, hall]
    rfl
  have hparts : Binary.ofFloat? (Numeral.toFloat ⟨negative, digits, [], 0⟩) =
      some ⟨negative, mantissa, exponent⟩ := by
    rw [hvalue]
    cases negative with
    | false => exact hnearest
    | true => exact ofFloat?_neg hnearest
  have hfinite : isFinite (Numeral.toFloat ⟨negative, digits, [], 0⟩) = true := by
    rw [isFinite, hparts]
    rfl
  refine ⟨Numeral.toFloat ⟨negative, digits, [], 0⟩, ?_, ?_⟩
  · rw [read?, scan?_of_spells hspells]
    exact if_pos hfinite
  · rw [nearestWhole?, hparts, Option.map_some, hround]
    rfl

end VectorIcon.Number
