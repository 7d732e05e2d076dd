import Mathlib
import VectorIcon.Proofs.Number.Order

/-!
# The parts of doubles

The parts that are read off the bits of a double are those that it is unpacked to (`ofFloat?_eq`), and
doubles are packed without loss (`unpack_pack_finite`). So the rounding to whole numbers, which works on the
parts, gives a double of the value that it says (`exists_ofFloat?_roundHalfAway`).
-/

namespace VectorIcon.Number

open Float.Model

variable {v w : Float} {a b : Binary} {s : UnpackedFloat.Sign} {m : Nat} {e : Int}

theorem leadingBit_eq : leadingBit = 2 ^ 52 := by decide

namespace Binary

/-- The parts of an unpacked double. -/
def ofUnpacked? : UnpackedFloat → Option Binary
  | .notANumber => none
  | .infinity _ => none
  | .zero s => some ⟨s == .negative, 0, -1074⟩
  | .finite s m e _ => some ⟨s == .negative, m, e⟩

theorem toNat_unpackExponent (bits : BitVec Format.binary64.numBits) :
    (UnpackedFloat.unpackExponent bits).toNat = (bits.toNat >>> 52) % 2048 := by
  rw [UnpackedFloat.unpackExponent_def, BitVec.extractLsb'_toNat]
  rfl

theorem toNat_unpackMantissa (bits : BitVec Format.binary64.numBits) :
    (UnpackedFloat.unpackMantissa bits).toNat = bits.toNat % leadingBit := by
  rw [UnpackedFloat.unpackMantissa_def, BitVec.extractLsb'_toNat, Nat.shiftRight_zero]
  rfl

theorem unpackSign_eq (bits : BitVec Format.binary64.numBits) :
    (UnpackedFloat.Sign.ofBitVec (UnpackedFloat.unpackSign bits) == .negative) =
      (bits.toNat >>> 63 == 1) := by
  have hbit : (UnpackedFloat.unpackSign bits).toNat = bits.toNat >>> 63 := by
    rw [UnpackedFloat.unpackSign_def, BitVec.extractLsb'_toNat]
    have hlt : bits.toNat < 2 ^ 64 := bits.isLt
    refine Nat.mod_eq_of_lt ?_
    show bits.toNat >>> 63 < 2 ^ 1
    rw [Nat.shiftRight_eq_div_pow]
    omega
  rw [← hbit]
  generalize UnpackedFloat.unpackSign bits = bit
  decide +revert

theorem ofFloat?_eq (v : Float) : ofFloat? v = ofUnpacked? v.toModel.unpack := by
  let bits : BitVec Format.binary64.numBits := v.toBits.toBitVec
  have hspecial : (bits.toNat >>> 52) % 2048 = 2047 ↔ UnpackedFloat.unpackExponent bits = -1#11 := by
    rw [← BitVec.toNat_inj, toNat_unpackExponent]
    rfl
  have hlow : (bits.toNat >>> 52) % 2048 = 0 ↔ UnpackedFloat.unpackExponent bits = 0#11 := by
    rw [← BitVec.toNat_inj, toNat_unpackExponent]
    rfl
  have hzero : bits.toNat % leadingBit = 0 ↔ UnpackedFloat.unpackMantissa bits = 0#52 := by
    rw [← BitVec.toNat_inj, toNat_unpackMantissa]
    rfl
  have hnormal : (1#1 ++ UnpackedFloat.unpackMantissa bits).toNat = leadingBit + bits.toNat % leadingBit := by
    rw [BitVec.toNat_append, ← toNat_unpackMantissa]
    exact (Nat.two_pow_add_eq_or_of_lt (UnpackedFloat.unpackMantissa bits).isLt 1).symm
  show (if (bits.toNat >>> 52) % 2048 = 2047 then none
    else if (bits.toNat >>> 52) % 2048 = 0 then
      some ⟨bits.toNat >>> 63 == 1, bits.toNat % leadingBit, -1074⟩
    else some ⟨bits.toNat >>> 63 == 1, leadingBit + bits.toNat % leadingBit,
      ((bits.toNat >>> 52) % 2048 : Nat) - 1075⟩) = ofUnpacked? (UnpackedFloat.unpack .binary64 bits)
  unfold UnpackedFloat.unpack
  dsimp only
  by_cases hinf : UnpackedFloat.unpackExponent bits = -1#11
  · rw [if_pos (hspecial.2 hinf), if_pos hinf]
    split <;> rfl
  · rw [if_neg (mt hspecial.1 hinf), if_neg hinf]
    by_cases hsmall : UnpackedFloat.unpackExponent bits = 0#11
    · rw [if_pos (hlow.2 hsmall), if_pos hsmall]
      split
      · next hm => rw [ofUnpacked?, hzero.2 hm, unpackSign_eq]
      · rw [ofUnpacked?, toNat_unpackMantissa, unpackSign_eq, toNat_unpackExponent, hlow.2 hsmall]
        rfl
    · rw [if_neg (mt hlow.1 hsmall), if_neg hsmall, ofUnpacked?, hnormal, toNat_unpackExponent, unpackSign_eq]
      rfl

/-- The parts of a double: at most 53 bits, and fewer only at the least exponent. -/
structure IsDouble (b : Binary) : Prop where
  mantissa_lt : b.mantissa < 2 ^ 53
  le_exponent : -1074 ≤ b.exponent
  exponent_le : b.exponent ≤ 971
  normal : b.exponent = -1074 ∨ 2 ^ 52 ≤ b.mantissa

theorem isDouble_of_ofFloat? (h : ofFloat? v = some b) : b.IsDouble := by
  unfold ofFloat? at h
  dsimp only at h
  rw [leadingBit_eq] at h
  split at h
  · cases h
  · next hscale =>
    have hlt : (v.toBits.toNat >>> 52) % 2048 < 2048 := Nat.mod_lt _ (by decide)
    have hfraction : v.toBits.toNat % 2 ^ 52 < 2 ^ 52 := Nat.mod_lt _ (by decide)
    split at h
    · obtain rfl := Option.some.inj h
      exact ⟨by dsimp only; omega, le_rfl, by dsimp only; omega, .inl rfl⟩
    · obtain rfl := Option.some.inj h
      exact ⟨by dsimp only; omega, by dsimp only; omega, by dsimp only; omega, .inr (Nat.le_add_right ..)⟩

theorem unpack_normal {exponent : BitVec 11} {fraction : BitVec 52} (hspecial : exponent ≠ -1#11)
    (hlow : exponent ≠ 0#11) (hm : 0 < m) (hmantissa : m = 2 ^ 52 + fraction.toNat)
    (he : e = exponent.toNat - 1075) :
    UnpackedFloat.unpack .binary64 (UnpackedFloat.packComponents .binary64 s exponent fraction) =
      .finite s m e hm := by
  have hnormal : (1#1 ++ fraction).toNat = m := by
    rw [hmantissa, BitVec.toNat_append]
    exact (Nat.two_pow_add_eq_or_of_lt fraction.isLt 1).symm
  subst hnormal he
  unfold UnpackedFloat.unpack
  simp only [UnpackedFloat.unpackExponent_packComponents, UnpackedFloat.unpackMantissa_packComponents,
    UnpackedFloat.unpackSign_packComponents, UnpackedFloat.Sign.ofBitVec_toBitVec]
  rw [if_neg hspecial, if_neg hlow]
  rfl

theorem unpack_subnormal {fraction : BitVec 52} (hm : 0 < m) (hmantissa : m = fraction.toNat) :
    UnpackedFloat.unpack .binary64 (UnpackedFloat.packComponents .binary64 s 0#11 fraction) =
      .finite s m (-1074) hm := by
  subst hmantissa
  have hne : fraction ≠ 0#52 := by
    rintro rfl
    exact absurd hm (by decide)
  unfold UnpackedFloat.unpack
  simp only [UnpackedFloat.unpackExponent_packComponents, UnpackedFloat.unpackMantissa_packComponents,
    UnpackedFloat.unpackSign_packComponents, UnpackedFloat.Sign.ofBitVec_toBitVec]
  rw [if_neg (by decide), if_pos trivial, dif_neg hne]
  rfl

/-- Exponents are packed with this bias. -/
theorem biased_eq (e : Int) :
    e + (Format.binary64.exponentBias : Int) + (Format.binary64.mantissaBitsWithoutImplicit : Int) =
      e + 1075 := by
  rw [add_assoc]
  rfl

/-- A double is unpacked as it was packed. -/
theorem unpack_pack_finite (hm : 0 < m) (h : IsDouble ⟨s == .negative, m, e⟩) :
    (Float.Model.pack (.finite s m e hm)).unpack = .finite s m e hm := by
  obtain ⟨hlt, hlow, hhigh, hnormal⟩ := h
  dsimp only at hlt hlow hhigh hnormal
  show UnpackedFloat.unpack .binary64 (UnpackedFloat.pack .binary64 (.finite s m e hm)) = _
  have hbits : Format.binary64.mantissaBits = 53 := rfl
  have hfraction : (BitVec.ofNat 52 m).toNat = m % 2 ^ 52 := BitVec.toNat_ofNat ..
  unfold UnpackedFloat.pack
  dsimp only
  rw [biased_eq, hbits, if_neg (by omega)]
  split
  · next hlog =>
    have hlarge : 2 ^ 52 ≤ m := by
      have hself := Nat.log2_self_le hm.ne'
      rwa [Nat.succ_inj.1 hlog] at hself
    have hexponent : (BitVec.ofNat 11 (e + 1075).toNat).toNat = (e + 1075).toNat := by
      rw [BitVec.toNat_ofNat]
      exact Nat.mod_eq_of_lt (by omega)
    refine unpack_normal (fun heq => ?_) (fun heq => ?_) hm (by omega) (by omega)
    · have htoNat := congrArg BitVec.toNat heq
      rw [hexponent] at htoNat
      change (e + 1075).toNat = 2047 at htoNat
      omega
    · have htoNat := congrArg BitVec.toNat heq
      rw [hexponent] at htoNat
      change (e + 1075).toNat = 0 at htoNat
      omega
  · next hlog =>
    have hsmall : m < 2 ^ 52 := by
      by_contra hlarge
      exact hlog (congrArg (· + 1) ((Nat.log2_eq_iff hm.ne').2 ⟨by omega, hlt⟩))
    obtain rfl : e = -1074 := hnormal.resolve_right (by omega)
    exact unpack_subnormal hm (by omega)

theorem ofFloat?_pack_finite (hm : 0 < m) (h : IsDouble ⟨s == .negative, m, e⟩) :
    ofFloat? (Float.ofModel (Float.Model.pack (.finite s m e hm))) = some ⟨s == .negative, m, e⟩ := by
  rw [ofFloat?_eq, unpack_pack_finite hm h]
  rfl

theorem ofFloat?_pack_zero (s : UnpackedFloat.Sign) :
    ofFloat? (Float.ofModel (Float.Model.pack (.zero s))) = some ⟨s == .negative, 0, -1074⟩ := by
  cases s <;> decide

/-- What has a greater exponent than a double is packed as an infinity. -/
theorem ofFloat?_pack_large (hm : 0 < m) (h : 972 ≤ e) :
    ofFloat? (Float.ofModel (Float.Model.pack (.finite s m e hm))) = none := by
  have hlarge : 2 ^ Format.binary64.exponentBits ≤ (e + 1075).toNat + 1 := by
    show 2048 ≤ _
    omega
  have hpack : UnpackedFloat.pack .binary64 (.finite s m e hm) =
      UnpackedFloat.pack .binary64 (.infinity s) := by
    unfold UnpackedFloat.pack
    dsimp only
    rw [biased_eq, if_pos hlarge]
  have hinfinity : Float.Model.pack (.finite s m e hm) = Float.Model.pack (.infinity s) := by
    unfold Float.Model.pack
    rw [Float.Model.mk.injEq, hpack]
  rw [hinfinity]
  cases s <;> decide

/-- Bits that are not those of an infinity or of no number are kept. -/
theorem toBits_ofBits {bits : UInt64} (h : (bits.toNat >>> 52) % 2048 ≠ 2047) :
    (Float.ofBits bits).toBits = bits := by
  have hnumber : @UnpackedFloat.isNaNBits .binary64 bits.toBitVec = false := by
    rw [UnpackedFloat.isNaNBits, decide_eq_false_iff_not]
    rintro ⟨hspecial, -⟩
    refine h ?_
    have htoNat := toNat_unpackExponent bits.toBitVec
    rw [hspecial] at htoNat
    exact htoNat.symm
  have hpack := @UnpackedFloat.pack_unpack .binary64 bits.toBitVec
  rw [hnumber, if_neg Bool.false_ne_true] at hpack
  exact congrArg UInt64.ofBitVec hpack

/-- The number without its sign. -/
def magnitude (b : Binary) : ℚ :=
  b.mantissa * 2 ^ b.exponent

/-- The bits of a sign, a scale and a fraction. -/
def bitsOf (negative : Bool) (scale fraction : Nat) : Nat :=
  (if negative then 2 ^ 63 else 0) + scale * 2 ^ 52 + fraction

section

variable (negative : Bool) {scale fraction : Nat} (hscale : scale < 2047) (hfraction : fraction < 2 ^ 52)

include hscale hfraction

theorem bitsOf_lt : bitsOf negative scale fraction < 2 ^ 64 := by
  unfold bitsOf
  split <;> omega

theorem bitsOf_negative : (bitsOf negative scale fraction >>> 63 == 1) = negative := by
  unfold bitsOf
  rw [Nat.shiftRight_eq_div_pow, Bool.eq_iff_iff, beq_iff_eq]
  cases negative with
  | false =>
    rw [if_neg Bool.false_ne_true]
    exact iff_of_false (by omega) Bool.false_ne_true
  | true =>
    rw [if_pos rfl]
    exact iff_of_true (by omega) rfl

theorem bitsOf_scale : (bitsOf negative scale fraction >>> 52) % 2048 = scale := by
  unfold bitsOf
  rw [Nat.shiftRight_eq_div_pow]
  split <;> omega

omit hscale in
theorem bitsOf_fraction : bitsOf negative scale fraction % 2 ^ 52 = fraction := by
  unfold bitsOf
  split <;> omega

/-- These bits are read as the sign, the scale and the fraction. -/
theorem ofFloat?_ofBits :
    ofFloat? (Float.ofBits (UInt64.ofNat (bitsOf negative scale fraction))) =
      if scale = 0 then some ⟨negative, fraction, -1074⟩
      else some ⟨negative, 2 ^ 52 + fraction, scale - 1075⟩ := by
  have htoNat : (UInt64.ofNat (bitsOf negative scale fraction)).toNat = bitsOf negative scale fraction :=
    UInt64.toNat_ofNat_of_lt (bitsOf_lt negative hscale hfraction)
  have hfinite : ((UInt64.ofNat (bitsOf negative scale fraction)).toNat >>> 52) % 2048 ≠ 2047 := by
    rw [htoNat, bitsOf_scale negative hscale hfraction]
    exact hscale.ne
  unfold ofFloat?
  dsimp only
  rw [toBits_ofBits hfinite, htoNat, leadingBit_eq, bitsOf_negative negative hscale hfraction,
    bitsOf_scale negative hscale hfraction, bitsOf_fraction negative hfraction, if_neg hscale.ne]

end

theorem magnitude_shiftLeft (negative : Bool) (m : Nat) {e lower : Int} (h : lower ≤ e) :
    magnitude ⟨negative, m <<< (e - lower).natAbs, lower⟩ = magnitude ⟨negative, m, e⟩ := by
  have hexponent : e = ((e - lower).natAbs : Int) + lower := by omega
  calc ((m <<< (e - lower).natAbs : Nat) : ℚ) * 2 ^ lower
      = m * (2 ^ ((e - lower).natAbs : Int) * 2 ^ lower) := by
        rw [Nat.shiftLeft_eq, zpow_natCast]
        push_cast
        ring
    _ = m * 2 ^ e := by rw [← zpow_add₀ two_ne_zero, ← hexponent]

/-- The exponent of the double that a number becomes. -/
def lowest (b : Binary) : Int :=
  max (-1074) (b.exponent + b.mantissa.log2 - 52)

/-- The mantissa of the double that a number becomes. -/
def shifted (b : Binary) : Nat :=
  b.mantissa <<< (b.exponent - b.lowest).natAbs

theorem toFloat_of_le (hzero : b.mantissa ≠ 0) (hle : b.lowest ≤ b.exponent) :
    b.toFloat =
      if b.shifted < leadingBit then
        Float.ofBits (UInt64.ofNat (bitsOf b.negative 0 b.shifted))
      else Float.ofBits (UInt64.ofNat
        (bitsOf b.negative (b.lowest + 1075).natAbs (b.shifted - leadingBit))) := by
  have hlowest : (if b.exponent + (b.mantissa.log2 + 1 : Nat) - 53 < -1074 then -1074
      else b.exponent + (b.mantissa.log2 + 1 : Nat) - 53) = b.lowest := by
    rw [lowest]
    split <;> omega
  unfold toFloat
  simp only [if_neg hzero, if_neg (Nat.succ_ne_zero _), hlowest, if_neg (not_lt.2 hle), bitsOf,
    Nat.zero_mul, Nat.add_zero, leadingBit_eq]
  rfl

theorem lowest_le (hzero : b.mantissa ≠ 0) (hmantissa : b.mantissa < 2 ^ 53) (hlow : -1074 ≤ b.exponent) :
    b.lowest ≤ b.exponent := by
  have hlog : b.mantissa.log2 < 53 := (Nat.log2_lt hzero).2 hmantissa
  rw [lowest]
  omega

/-- A number of at most 53 bits has the parts of a double when it is shifted so. -/
theorem isDouble_shifted (hzero : b.mantissa ≠ 0) (hmantissa : b.mantissa < 2 ^ 53)
    (hlow : -1074 ≤ b.exponent) (hhigh : b.exponent ≤ 971) :
    IsDouble ⟨b.negative, b.shifted, b.lowest⟩ := by
  have hle := lowest_le hzero hmantissa hlow
  have hlowest : b.lowest = max (-1074) (b.exponent + b.mantissa.log2 - 52) := rfl
  have hself : 2 ^ b.mantissa.log2 ≤ b.mantissa := Nat.log2_self_le hzero
  have hnext : b.mantissa < 2 ^ (b.mantissa.log2 + 1) := Nat.lt_log2_self
  have hshifted : b.shifted = b.mantissa * 2 ^ (b.exponent - b.lowest).natAbs := Nat.shiftLeft_eq ..
  refine ⟨?_, le_max_left .., hle.trans hhigh, ?_⟩
  · calc b.shifted = b.mantissa * 2 ^ (b.exponent - b.lowest).natAbs := hshifted
      _ < 2 ^ (b.mantissa.log2 + 1) * 2 ^ (b.exponent - b.lowest).natAbs :=
        Nat.mul_lt_mul_of_pos_right hnext (by positivity)
      _ = 2 ^ (b.mantissa.log2 + 1 + (b.exponent - b.lowest).natAbs) := (Nat.pow_add ..).symm
      _ ≤ 2 ^ 53 := Nat.pow_le_pow_right (by decide) (by omega)
  · refine or_iff_not_imp_left.2 fun hne => ?_
    have hexponents : b.mantissa.log2 + (b.exponent - b.lowest).natAbs = 52 := by
      dsimp only at hne
      omega
    calc 2 ^ 52 = 2 ^ b.mantissa.log2 * 2 ^ (b.exponent - b.lowest).natAbs := by
          rw [← Nat.pow_add, hexponents]
      _ ≤ b.mantissa * 2 ^ (b.exponent - b.lowest).natAbs := Nat.mul_le_mul_right _ hself
      _ = b.shifted := hshifted.symm

/-- A number of at most 53 bits whose last place is that of a double becomes a double of the same value. -/
theorem exists_ofFloat?_toFloat (hmantissa : b.mantissa < 2 ^ 53) (hlow : -1074 ≤ b.exponent)
    (hhigh : b.exponent ≤ 971) :
    ∃ c, ofFloat? b.toFloat = some c ∧ c.negative = b.negative ∧ c.magnitude = b.magnitude := by
  have hscale : 0 < 2047 := by decide
  by_cases hzero : b.mantissa = 0
  · refine ⟨⟨b.negative, 0, -1074⟩, ?_, rfl, ?_⟩
    · have hbits := ofFloat?_ofBits b.negative hscale (Nat.two_pow_pos 52)
      rw [if_pos rfl] at hbits
      unfold toFloat
      dsimp only
      rwa [if_pos hzero, if_pos rfl]
    · rw [magnitude, magnitude, hzero, Nat.cast_zero, zero_mul, zero_mul]
  · have hle := lowest_le hzero hmantissa hlow
    obtain ⟨hlt, hleast, hgreatest, hnormal⟩ := isDouble_shifted hzero hmantissa hlow hhigh
    dsimp only at hlt hleast hgreatest hnormal
    refine ⟨⟨b.negative, b.shifted, b.lowest⟩, ?_, rfl, magnitude_shiftLeft _ _ hle⟩
    rw [toFloat_of_le hzero hle, leadingBit_eq]
    split
    · next hsmall =>
      have hbits := ofFloat?_ofBits b.negative hscale hsmall
      rw [if_pos rfl] at hbits
      rw [hbits, hnormal.resolve_right (not_le.2 hsmall)]
    · next hlarge =>
      have hparts : 2 ^ 52 + (b.shifted - 2 ^ 52) = b.shifted := by omega
      have hexponent : ((b.lowest + 1075).natAbs : Int) - 1075 = b.lowest := by omega
      rw [ofFloat?_ofBits _ (by omega) (by omega), if_neg (by omega), hparts, hexponent]

/-- A finite double that is rounded is the whole number that its parts say. -/
theorem exists_ofFloat?_roundHalfAway (h : ofFloat? v = some b) :
    ∃ c, ofFloat? (roundHalfAway v) = some c ∧ c.magnitude = b.roundMagnitude := by
  have hdouble := isDouble_of_ofFloat? h
  unfold roundHalfAway
  rw [h]
  dsimp only
  split
  · next hexponent =>
    refine ⟨b, h, ?_⟩
    rw [roundMagnitude, if_neg (by omega), magnitude, Nat.shiftLeft_eq, Nat.cast_mul, Nat.cast_pow,
      Nat.cast_ofNat, ← zpow_natCast, Int.natAbs_of_nonneg hexponent]
  · next hexponent =>
    have hround : b.roundMagnitude < 2 ^ 53 := by
      rw [roundMagnitude, if_pos (by omega), Nat.shiftLeft_eq, Nat.shiftRight_eq_div_pow, Nat.pow_succ]
      have hpos : 0 < 2 ^ b.exponent.natAbs := by positivity
      have hlt := hdouble.mantissa_lt
      refine Nat.div_lt_of_lt_mul ?_
      omega
    obtain ⟨c, hc, -, hvalue⟩ := exists_ofFloat?_toFloat (b := ⟨b.negative, b.roundMagnitude, 0⟩) hround
      (by dsimp only; omega) (by dsimp only; omega)
    refine ⟨c, hc, hvalue.trans ?_⟩
    rw [magnitude, zpow_zero, mul_one]

end Binary

/-! ## Finite doubles -/

theorem ofModel_pack_unpack (v : Float) : Float.ofModel (Float.Model.pack v.toModel.unpack) = v :=
  Float.ofBits_toBits v

/-- A double is finite, no number or an infinity. -/
theorem isFinite_or (v : Float) : isFinite v = true ∨ v.toModel.unpack = .notANumber ∨
    ∃ s, v.toModel.unpack = .infinity s := by
  rw [isFinite, Binary.ofFloat?_eq]
  cases v.toModel.unpack with
  | notANumber => exact .inr (.inl rfl)
  | infinity s => exact .inr (.inr ⟨s, rfl⟩)
  | zero s => exact .inl rfl
  | finite s m e hm => exact .inl rfl

/-- A finite double has parts. -/
theorem exists_ofFloat? (h : isFinite v = true) : ∃ b, Binary.ofFloat? v = some b :=
  Option.isSome_iff_exists.1 h

/-- A double with parts is a zero or the finite number that they say. -/
theorem unpack_of_ofFloat? (h : Binary.ofFloat? v = some b) :
    (b.mantissa = 0 ∧ ∃ s, v.toModel.unpack = .zero s ∧ b = ⟨s == .negative, 0, -1074⟩) ∨
      ∃ s, ∃ hm : 0 < b.mantissa, v.toModel.unpack = .finite s b.mantissa b.exponent hm ∧
        b.negative = (s == .negative) := by
  rw [Binary.ofFloat?_eq] at h
  cases hunpack : v.toModel.unpack with
  | notANumber =>
    rw [hunpack] at h
    cases h
  | infinity s =>
    rw [hunpack] at h
    cases h
  | zero s =>
    rw [hunpack] at h
    obtain rfl := Option.some.inj h
    exact .inl ⟨rfl, s, rfl, rfl⟩
  | finite s m e hm =>
    rw [hunpack] at h
    obtain rfl := Option.some.inj h
    exact .inr ⟨s, hm, rfl, rfl⟩

/-- A double without a mantissa is a zero. -/
theorem beq_zero_of_ofFloat? (h : Binary.ofFloat? v = some b) (hb : b.mantissa = 0) : (v == 0) = true := by
  have hv := ofModel_pack_unpack v
  rcases unpack_of_ofFloat? h with ⟨-, s, hunpack, -⟩ | ⟨s, hm, -⟩
  · rw [← hv, hunpack]
    cases s <;> decide
  · exact absurd hb hm.ne'

/-- A product of finite doubles is finite or an infinity. -/
theorem isFinite_mul_or (hv : Binary.ofFloat? v = some a) (hw : Binary.ofFloat? w = some b) :
    isFinite (v * w) = true ∨ ∃ s, v * w = Float.ofModel (pack (.infinity s)) := by
  have hmul : UnpackedFloat.mul .binary64 v.toModel.unpack w.toModel.unpack ≠ .notANumber := by
    obtain ⟨-, s, hv', -⟩ | ⟨s, hm, hv', -⟩ := unpack_of_ofFloat? hv <;>
      obtain ⟨-, t, hw', -⟩ | ⟨t, hm', hw', -⟩ := unpack_of_ofFloat? hw <;> rw [hv', hw']
    · nofun
    · nofun
    · nofun
    · exact roundWithAccuracy_ne_notANumber _ _ _ _
  rcases isFinite_or (v * w) with hfinite | hnan | ⟨s, hs⟩
  · exact .inl hfinite
  · exact absurd hnan (unpack_ne_of_isNaN (isNaN_pack hmul))
  · exact .inr ⟨s, (ofModel_pack_unpack (v * w)).symm.trans (by rw [hs])⟩

end VectorIcon.Number
