import Mathlib
import VectorIcon.Number.Binary

/-!
# Doubles in order

A double that is a number is compared with every other such double. So a clamped number lies between its
bounds (`clamp_mem`). What is read from a text is finite, and a finite number stays a number when it is
divided by a hundred (`isNaN_percent`).
-/

namespace VectorIcon.Number

open Float.Model

/-! ## Comparison -/

theorem compare_swap (a b : UnpackedFloat) :
    b.compare a = (a.compare b).map Ordering.swap := by
  cases a with
  | notANumber => cases b <;> rfl
  | infinity s =>
    cases b with
    | notANumber => cases s <;> rfl
    | infinity t => cases s <;> cases t <;> rfl
    | zero t => cases s <;> cases t <;> rfl
    | finite t m e h => cases s <;> cases t <;> rfl
  | zero s =>
    cases b with
    | notANumber => cases s <;> rfl
    | infinity t => cases s <;> cases t <;> rfl
    | zero t => cases s <;> cases t <;> rfl
    | finite t m e h => cases s <;> cases t <;> rfl
  | finite s m e h =>
    cases b with
    | notANumber => cases s <;> rfl
    | infinity t => cases s <;> cases t <;> rfl
    | zero t => cases s <;> cases t <;> rfl
    | finite t n k h' =>
      -- the exponents decide first, and then the mantissas
      cases s <;> cases t <;>
        simp [UnpackedFloat.compare, Ordering.swap_then, Int.compare_swap, Nat.compare_swap]

theorem exists_compare {a b : UnpackedFloat} (ha : a ≠ .notANumber) (hb : b ≠ .notANumber) :
    ∃ o, a.compare b = some o := by
  cases hab : a.compare b with
  | some o => exact ⟨o, rfl⟩
  | none =>
    unfold UnpackedFloat.compare at hab
    split at hab <;> first | exact absurd rfl ha | exact absurd rfl hb | cases hab

theorem unpack_ne_of_isNaN {v : Float} (h : v.isNaN = false) : v.toModel.unpack ≠ .notANumber := by
  intro hnan
  have htrue : v.isNaN = true := UnpackedFloat.isNaN_iff.2 hnan
  rw [h] at htrue
  cases htrue

theorem lt_iff_compare {v w : Float} :
    v < w ↔ v.toModel.unpack.compare w.toModel.unpack = some .lt := by
  show decide (Float.Model.lt v.toModel w.toModel = true) = true ↔ _
  simp [Float.Model.lt, UnpackedFloat.lt]

theorem le_iff_compare {v w : Float} :
    v ≤ w ↔ ∃ o, v.toModel.unpack.compare w.toModel.unpack = some o ∧ o.isLE = true := by
  show decide (Float.Model.le v.toModel w.toModel = true) = true ↔ _
  rw [decide_eq_true_iff]
  show ((v.toModel.unpack.compare w.toModel.unpack).any (·.isLE)) = true ↔ _
  rw [Option.any_eq_true]

protected theorem le_of_lt {v w : Float} (h : v < w) : v ≤ w :=
  le_iff_compare.2 ⟨.lt, lt_iff_compare.1 h, rfl⟩

protected theorem le_of_not_lt {v w : Float} (hv : v.isNaN = false) (hw : w.isNaN = false) (h : ¬ v < w) :
    w ≤ v := by
  obtain ⟨o, ho⟩ := exists_compare (unpack_ne_of_isNaN hv) (unpack_ne_of_isNaN hw)
  refine le_iff_compare.2 ⟨o.swap, by rw [compare_swap, ho]; rfl, ?_⟩
  cases o with
  | lt => exact absurd (lt_iff_compare.2 ho) h
  | eq => rfl
  | gt => rfl

protected theorem le_refl {v : Float} (h : v.isNaN = false) : v ≤ v := by
  obtain ⟨o, ho⟩ := exists_compare (unpack_ne_of_isNaN h) (unpack_ne_of_isNaN h)
  have hswap : some o = some o.swap := by
    rw [← ho, compare_swap, ho]
    rfl
  refine le_iff_compare.2 ⟨o, ho, ?_⟩
  cases o with
  | lt => rfl
  | eq => rfl
  | gt => cases hswap

/-- A number that is clamped lies between the bounds. -/
theorem clamp_mem {low high v : Float} (hlow : low.isNaN = false) (hhigh : high.isNaN = false)
    (hbounds : low ≤ high) (hv : v.isNaN = false) :
    low ≤ clamp low high v ∧ clamp low high v ≤ high := by
  unfold clamp
  split
  · exact ⟨Number.le_refl hlow, hbounds⟩
  · next hge =>
    split
    · exact ⟨hbounds, Number.le_refl hhigh⟩
    · next hle => exact ⟨Number.le_of_not_lt hv hlow hge, Number.le_of_not_lt hhigh hv hle⟩

/-- What is negative or no number is replaced by zero. -/
theorem zero_le_positivePart (v : Float) : 0 ≤ if 0 < v then v else 0 := by
  split
  · next hpositive => exact Number.le_of_lt hpositive
  · exact Number.le_refl (by decide)

/-! ## Numbers -/

theorem isNaN_of_isFinite {v : Float} (h : isFinite v = true) : v.isNaN = false := by
  rw [Float.isNaN_eq_decide_eq_nan, decide_eq_false_iff_not]
  rintro rfl
  exact absurd h (by decide)

/-- A finite double is not unpacked as an infinity. -/
theorem unpack_ne_infinity {v : Float} (h : isFinite v = true) (s : UnpackedFloat.Sign) :
    v.toModel.unpack ≠ .infinity s := by
  intro hunpack
  have hv : Float.ofModel (pack v.toModel.unpack) = v := Float.ofBits_toBits v
  rw [← hv, hunpack] at h
  cases s <;> exact absurd h (by decide)

theorem roundWithAccuracy_ne_notANumber (s : UnpackedFloat.Sign) (m : Nat) (e : Int)
    (accuracy : UnpackedFloat.Accuracy) :
    UnpackedFloat.roundWithAccuracy .binary64 s m e accuracy ≠ .notANumber := by
  unfold UnpackedFloat.roundWithAccuracy
  dsimp only
  split <;> nofun

/-- Only what is no number is packed as no number. -/
theorem pack_ne_packedNaN {u : UnpackedFloat} (h : u ≠ .notANumber) :
    u.pack .binary64 ≠ UnpackedFloat.packedNaN .binary64 := by
  intro hpack
  have hexponent := congrArg UnpackedFloat.unpackExponent hpack
  have hmantissa := congrArg UnpackedFloat.unpackMantissa hpack
  cases u with
  | notANumber => exact absurd rfl h
  | infinity s => cases s <;> exact absurd hmantissa (by decide)
  | zero s => cases s <;> exact absurd hmantissa (by decide)
  | finite s m e hm =>
    rw [UnpackedFloat.packedNaN, UnpackedFloat.unpackExponent_packComponents] at hexponent
    rw [UnpackedFloat.packedNaN, UnpackedFloat.unpackMantissa_packComponents] at hmantissa
    unfold UnpackedFloat.pack at hexponent hmantissa
    dsimp only at hexponent hmantissa
    split at hexponent
    · next hlarge =>
      rw [if_pos hlarge, UnpackedFloat.packedInfinity, UnpackedFloat.unpackMantissa_packComponents]
        at hmantissa
      exact absurd hmantissa (by decide)
    · next hsmall =>
      split at hexponent
      · rw [UnpackedFloat.unpackExponent_packComponents] at hexponent
        have hfield : (e + Format.binary64.exponentBias + 52).toNat % 2048 = 2047 :=
          congrArg BitVec.toNat hexponent
        omega
      · rw [UnpackedFloat.unpackExponent_packComponents] at hexponent
        exact absurd hexponent (by decide)

theorem isNaN_pack {u : UnpackedFloat} (h : u ≠ .notANumber) : (Float.ofModel (pack u)).isNaN = false := by
  rw [Float.isNaN_eq_decide_eq_nan, decide_eq_false_iff_not, ← Float.toBits_inj, ← UInt64.toBitVec_inj]
  exact pack_ne_packedNaN h

/-- A hundredth of a finite number is a number. -/
theorem isNaN_percent {v : Float} (h : isFinite v = true) : (v / 100).isNaN = false := by
  have hhundred : (100 : Float).toModel.unpack = .finite .positive (25 * 2 ^ 48) (-46) (by decide) := by
    rfl
  have hdiv : UnpackedFloat.div .binary64 v.toModel.unpack (100 : Float).toModel.unpack ≠
      .notANumber := by
    rw [hhundred]
    cases hv : v.toModel.unpack with
    | notANumber => exact absurd hv (unpack_ne_of_isNaN (isNaN_of_isFinite h))
    | infinity s => exact absurd hv (unpack_ne_infinity h s)
    | zero s => nofun
    | finite s m e hm =>
      exact roundWithAccuracy_ne_notANumber _ _ _ _
  exact isNaN_pack hdiv

end VectorIcon.Number
