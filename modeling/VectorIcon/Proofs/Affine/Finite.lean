import VectorIcon.Affine.FunctionList
import VectorIcon.Proofs.Number.Addition
import VectorIcon.Proofs.Number.Hypotenuse

/-!
# Maps with finite parameters

The parameters that are found in a matrix of doubles are finite exactly when its move is finite, both columns are
shorter than the limit of doubles in exact arithmetic, and the turn is finite (`isFinite_params_iff`). Only the
turn is not known from the numbers of the matrix: the platform finds the angle of a direction.
-/

namespace VectorIcon.Affine

open Number

variable {v : Float}

/-- A double that is not finite is an infinity or no number. -/
theorem eq_of_not_isFinite (h : isFinite v = false) : v = 1.0 / 0.0 ∨ v = -1.0 / 0.0 ∨ v = 0.0 / 0.0 := by
  rw [← ofModel_pack_unpack v]
  rcases isFinite_or v with hfinite | hnan | ⟨s, hs⟩
  · rw [h] at hfinite
    cases hfinite
  · rw [hnan]
    exact .inr (.inr (by decide +kernel))
  · rw [hs]
    cases s with
    | positive => exact .inl (by decide +kernel)
    | negative => exact .inr (.inl (by decide +kernel))

theorem isFinite_neg_iff : isFinite (-v) = true ↔ isFinite v = true := by
  refine ⟨fun h => ?_, isFinite_neg⟩
  by_contra hnot
  obtain rfl | rfl | rfl := eq_of_not_isFinite (Bool.eq_false_of_not_eq_true hnot)
  all_goals exact absurd h (by decide +kernel)

theorem isFinite_snap_iff : isFinite (snap v) = true ↔ isFinite v = true := by
  constructor
  · intro h
    by_contra hnot
    obtain rfl | rfl | rfl := eq_of_not_isFinite (Bool.eq_false_of_not_eq_true hnot)
    all_goals exact absurd h (by decide +kernel)
  · intro h
    obtain ⟨b, hb⟩ := exists_ofFloat? h
    obtain ⟨c, hc, -⟩ := Binary.exists_ofFloat?_roundHalfAway hb
    unfold snap
    dsimp only
    split
    · split
      · decide
      · exact Option.isSome_iff_exists.2 ⟨c, hc⟩
    · exact h

/-- The numbers of a map. -/
def Params.numbers (p : Params Float) : List Float :=
  [p.rotation, p.scaleX, p.scaleY, p.translationX, p.translationY]

/-- A map whose parameters are finite: its move is finite, its columns are shorter than the limit of doubles, and
its turn is finite. -/
structure Matrix.IsBounded (m : Matrix Float) : Prop where
  move : isFinite m.e = true ∧ isFinite m.f = true
  left : HasLength m.a m.b
  right : HasLength m.c m.d
  turn : isFinite (Params.ofMatrix m).rotation = true

/-- The parameters of a bounded map are finite, and no others are. -/
theorem isFinite_params_iff (m : Matrix Float) :
    (∀ w ∈ (Params.ofMatrix m).numbers, isFinite w = true) ↔ m.IsBounded := by
  have hscaleX : isFinite (Params.ofMatrix m).scaleX = true ↔ HasLength m.a m.b :=
    isFinite_snap_iff.trans isFinite_hypotenuse_iff
  have hscaleY : isFinite (Params.ofMatrix m).scaleY = true ↔ HasLength m.c m.d := by
    rw [← isFinite_hypotenuse_iff]
    refine isFinite_snap_iff.trans ?_
    split
    · exact isFinite_neg_iff
    · exact Iff.rfl
  have hmoveX : isFinite (Params.ofMatrix m).translationX = true ↔ isFinite m.e = true := isFinite_snap_iff
  have hmoveY : isFinite (Params.ofMatrix m).translationY = true ↔ isFinite m.f = true := isFinite_snap_iff
  simp only [Params.numbers, List.forall_mem_cons, hscaleX, hscaleY, hmoveX, hmoveY]
  exact ⟨fun ⟨hturn, hleft, hright, hx, hy, _⟩ => ⟨⟨hx, hy⟩, hleft, hright, hturn⟩,
    fun ⟨⟨hx, hy⟩, hleft, hright, hturn⟩ => ⟨hturn, hleft, hright, hx, hy, nofun⟩⟩

end VectorIcon.Affine
