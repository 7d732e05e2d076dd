import Mathlib.Analysis.SpecialFunctions.Complex.Arg
import VectorIcon.Affine.Params

/-!
# Maps and their parameters

In exact arithmetic the scale, the turn and the move that are found in a map keep everything but its shear
(`matrix_ofMatrix_up_to_shear`).

1. The direction of a vector is the angle with its cosine and sine (`cosine_direction`, `sine_direction`),
   above `-180` and up to `180`, so that it is settled already (`settle_direction`).
2. The horizontal scale and the turn give back the first column. The second column becomes a vector of the
   same length at a right angle to the first, on the side that the determinant tells
   (`verticalScale_neg_iff`).
3. When the columns are orthogonal there is only one such vector (`length_mul_verticalScale`).
-/

namespace VectorIcon.Affine

/-! ## Exact measures -/

/-- The measures of real numbers. They have no noise that could be snapped. -/
noncomputable instance : Measure ℝ where
  sine v := Real.sin (v * (Real.pi / 180))
  cosine v := Real.cos (v * (Real.pi / 180))
  tangent v := Real.tan (v * (Real.pi / 180))
  direction x y := Complex.arg ⟨x, y⟩ * (180 / Real.pi)
  length x y := √(x ^ 2 + y ^ 2)
  snap v := v
  settle v := if v ≤ -180 then v + 360 else v

section

variable (x y : ℝ)

theorem length_mul_length : Measure.length x y * Measure.length x y = x ^ 2 + y ^ 2 :=
  Real.mul_self_sqrt (by positivity)

theorem zero_le_length : 0 ≤ Measure.length x y :=
  Real.sqrt_nonneg _

theorem length_pos {x y : ℝ} (h : (x, y) ≠ (0, 0)) : 0 < Measure.length x y := by
  refine Real.sqrt_pos.2 ?_
  by_cases hx : x = 0
  · have hy : y ≠ 0 := by
      rintro rfl
      exact h (by rw [hx])
    positivity
  · positivity

theorem direction_in_radians :
    Measure.direction x y * (Real.pi / 180) = Complex.arg ⟨x, y⟩ := by
  show Complex.arg ⟨x, y⟩ * (180 / Real.pi) * (Real.pi / 180) = Complex.arg ⟨x, y⟩
  field_simp

theorem cosine_direction {x y : ℝ} (h : (x, y) ≠ (0, 0)) :
    Measure.cosine (Measure.direction x y) = x / Measure.length x y := by
  have hne : (⟨x, y⟩ : ℂ) ≠ 0 := by
    intro heq
    exact h (Prod.ext (congrArg Complex.re heq) (congrArg Complex.im heq))
  show Real.cos (Measure.direction x y * (Real.pi / 180)) = x / √(x ^ 2 + y ^ 2)
  rw [direction_in_radians, Complex.cos_arg hne, Complex.norm_eq_sqrt_sq_add_sq]

theorem sine_direction : Measure.sine (Measure.direction x y) = y / Measure.length x y := by
  show Real.sin (Measure.direction x y * (Real.pi / 180)) = y / √(x ^ 2 + y ^ 2)
  rw [direction_in_radians, Complex.sin_arg, Complex.norm_eq_sqrt_sq_add_sq]

theorem direction_mem : -180 < Measure.direction x y ∧ Measure.direction x y ≤ 180 := by
  have hdegree : (0 : ℝ) < 180 / Real.pi := by positivity
  have hhalf : Real.pi * (180 / Real.pi) = 180 := by field_simp
  obtain ⟨hlow, hhigh⟩ := Complex.arg_mem_Ioc ⟨x, y⟩
  constructor
  · calc (-180 : ℝ) = -Real.pi * (180 / Real.pi) := by rw [neg_mul, hhalf]
      _ < Complex.arg ⟨x, y⟩ * (180 / Real.pi) := mul_lt_mul_of_pos_right hlow hdegree
  · calc Complex.arg ⟨x, y⟩ * (180 / Real.pi) ≤ Real.pi * (180 / Real.pi) :=
          mul_le_mul_of_nonneg_right hhigh hdegree.le
      _ = 180 := hhalf

theorem settle_direction : Measure.settle (Measure.direction x y) = Measure.direction x y :=
  if_neg (not_le.2 (direction_mem x y).1)

end

/-! ## The parts of a map -/

/-- The area that the columns span; negative for a map that mirrors. -/
def Matrix.determinant (m : Matrix ℝ) : ℝ :=
  m.a * m.d - m.b * m.c

/-- The length of the second column, with the sign of the determinant. -/
noncomputable def Matrix.verticalScale (m : Matrix ℝ) : ℝ :=
  if m.determinant < 0 then -Measure.length m.c m.d else Measure.length m.c m.d

/-- The map that does the scale, then the turn, then the move. -/
noncomputable def Params.matrix (p : Params ℝ) : Matrix ℝ :=
  ((Matrix.scaling p.scaleX p.scaleY).andThen (.rotation p.rotation)).andThen
    (.translation p.translationX p.translationY)

theorem matrix_eq (p : Params ℝ) :
    p.matrix = ⟨p.scaleX * Measure.cosine p.rotation, p.scaleX * Measure.sine p.rotation,
      -(p.scaleY * Measure.sine p.rotation), p.scaleY * Measure.cosine p.rotation,
      p.translationX, p.translationY⟩ := by
  simp [Params.matrix, Matrix.andThen, Matrix.scaling, Matrix.rotation, Matrix.translation]

section

variable {m : Matrix ℝ}

theorem verticalScale_mul_self : m.verticalScale * m.verticalScale = m.c ^ 2 + m.d ^ 2 := by
  unfold Matrix.verticalScale
  split
  · rw [neg_mul_neg, length_mul_length]
  · rw [length_mul_length]

/-- A map that mirrors has a second column that is not zero. -/
theorem verticalScale_neg_iff : m.verticalScale < 0 ↔ m.determinant < 0 := by
  unfold Matrix.verticalScale
  split
  · next h =>
    have hne : (m.c, m.d) ≠ (0, 0) := by
      intro hzero
      obtain ⟨hc, hd⟩ := Prod.mk.inj hzero
      rw [Matrix.determinant, hc, hd] at h
      simp at h
    exact ⟨fun _ => h, fun _ => neg_lt_zero.2 (length_pos hne)⟩
  · next h =>
    exact ⟨fun hlt => absurd hlt (not_lt.2 (zero_le_length m.c m.d)), fun hlt => absurd hlt h⟩

/-- Orthogonal columns span the product of their lengths. -/
theorem length_mul_verticalScale (h : m.a * m.c + m.b * m.d = 0) :
    Measure.length m.a m.b * m.verticalScale = m.determinant := by
  have hsquare : (Measure.length m.a m.b * Measure.length m.c m.d) ^ 2 = m.determinant ^ 2 := by
    calc (Measure.length m.a m.b * Measure.length m.c m.d) ^ 2
        = (Measure.length m.a m.b * Measure.length m.a m.b) *
            (Measure.length m.c m.d * Measure.length m.c m.d) := by ring
      _ = (m.a ^ 2 + m.b ^ 2) * (m.c ^ 2 + m.d ^ 2) := by
          rw [length_mul_length, length_mul_length]
      _ = m.determinant ^ 2 + (m.a * m.c + m.b * m.d) ^ 2 := by
          rw [Matrix.determinant]
          ring
      _ = m.determinant ^ 2 := by rw [h, zero_pow two_ne_zero, add_zero]
  have harea : Measure.length m.a m.b * Measure.length m.c m.d = |m.determinant| := by
    rw [← abs_of_nonneg (mul_nonneg (zero_le_length m.a m.b) (zero_le_length m.c m.d))]
    exact (sq_eq_sq_iff_abs_eq_abs _ _).1 hsquare
  unfold Matrix.verticalScale
  split
  · next hneg => rw [mul_neg, harea, abs_of_neg hneg, neg_neg]
  · next hnonneg => rw [harea, abs_of_nonneg (not_lt.1 hnonneg)]

variable (h : (m.a, m.b) ≠ (0, 0))

include h

theorem ofMatrix_eq :
    Params.ofMatrix m =
      ⟨m.e, m.f, Measure.length m.a m.b, m.verticalScale, Measure.direction m.a m.b⟩ := by
  have hscale : (Measure.length m.a m.b == 0) = false := beq_false_of_ne (length_pos h).ne'
  have hsnap (v : ℝ) : Measure.snap v = v := rfl
  simp only [Params.ofMatrix, hscale, hsnap, Bool.false_eq_true, if_false, settle_direction]
  rfl

theorem matrix_ofMatrix_eq :
    (Params.ofMatrix m).matrix =
      ⟨m.a, m.b, -(m.verticalScale * (m.b / Measure.length m.a m.b)),
        m.verticalScale * (m.a / Measure.length m.a m.b), m.e, m.f⟩ := by
  have hne := (length_pos h).ne'
  rw [ofMatrix_eq h, matrix_eq, cosine_direction h, sine_direction, mul_div_cancel₀ _ hne,
    mul_div_cancel₀ _ hne]

theorem length_matrix_ofMatrix :
    Measure.length (Params.ofMatrix m).matrix.c (Params.ofMatrix m).matrix.d =
      Measure.length m.c m.d := by
  have hpos := length_pos h
  rw [matrix_ofMatrix_eq h]
  refine congrArg Real.sqrt ?_
  simp only
  field_simp
  rw [sq (Measure.length m.a m.b), length_mul_length, ← verticalScale_mul_self]
  ring

theorem determinant_matrix_ofMatrix :
    (Params.ofMatrix m).matrix.determinant = Measure.length m.a m.b * m.verticalScale := by
  have hpos := length_pos h
  rw [matrix_ofMatrix_eq h, Matrix.determinant]
  field_simp
  rw [sq (Measure.length m.a m.b), length_mul_length]
  ring

/-- A part of the direction, with the vertical scale, over the square of the horizontal one. -/
theorem sq_mul_verticalScale (horthogonal : m.a * m.c + m.b * m.d = 0) (v : ℝ) :
    (m.a ^ 2 + m.b ^ 2) * (m.verticalScale * (v / Measure.length m.a m.b)) = m.determinant * v := by
  have hpos := length_pos h
  rw [← length_mul_verticalScale horthogonal, ← length_mul_length]
  field_simp

/-- A vector that is orthogonal to the first column is known by the area that it spans with it. -/
theorem matrix_ofMatrix_of_orthogonal (horthogonal : m.a * m.c + m.b * m.d = 0) :
    (Params.ofMatrix m).matrix = m := by
  -- over its square length, the direction of the first column turns areas into the second column
  have hne : m.a ^ 2 + m.b ^ 2 ≠ 0 := by
    rw [← length_mul_length]
    exact (mul_pos (length_pos h) (length_pos h)).ne'
  have hc : -(m.verticalScale * (m.b / Measure.length m.a m.b)) = m.c := by
    refine mul_left_cancel₀ hne ?_
    calc (m.a ^ 2 + m.b ^ 2) * -(m.verticalScale * (m.b / Measure.length m.a m.b))
        = -(m.determinant * m.b) := by rw [mul_neg, sq_mul_verticalScale h horthogonal]
      _ = (m.a ^ 2 + m.b ^ 2) * m.c - m.a * (m.a * m.c + m.b * m.d) := by
          rw [Matrix.determinant]
          ring
      _ = (m.a ^ 2 + m.b ^ 2) * m.c := by rw [horthogonal, mul_zero, sub_zero]
  have hd : m.verticalScale * (m.a / Measure.length m.a m.b) = m.d := by
    refine mul_left_cancel₀ hne ?_
    calc (m.a ^ 2 + m.b ^ 2) * (m.verticalScale * (m.a / Measure.length m.a m.b))
        = m.determinant * m.a := sq_mul_verticalScale h horthogonal _
      _ = (m.a ^ 2 + m.b ^ 2) * m.d - m.b * (m.a * m.c + m.b * m.d) := by
          rw [Matrix.determinant]
          ring
      _ = (m.a ^ 2 + m.b ^ 2) * m.d := by rw [horthogonal, mul_zero, sub_zero]
  rw [matrix_ofMatrix_eq h, hc, hd]

end

/-- **Only shear is lost.** The parameters of a map move as it does, and they give back its first column.
Their second column is orthogonal to the first, as long as that of the map and on the same side; it is that
of the map when the columns of the map are orthogonal. -/
theorem matrix_ofMatrix_up_to_shear {m : Matrix ℝ} (h : (m.a, m.b) ≠ (0, 0)) :
    let p := Params.ofMatrix m
    let n := p.matrix
    (p.translationX = m.e ∧ p.translationY = m.f) ∧
    (0 < p.scaleX ∧ Measure.cosine p.rotation = m.a / p.scaleX ∧
      Measure.sine p.rotation = m.b / p.scaleX ∧ -180 < p.rotation ∧ p.rotation ≤ 180) ∧
    (n.a = m.a ∧ n.b = m.b) ∧
    m.a * n.c + m.b * n.d = 0 ∧
    Measure.length n.c n.d = Measure.length m.c m.d ∧
    (n.determinant < 0 ↔ m.determinant < 0) ∧
    (m.a * m.c + m.b * m.d = 0 → n = m) := by
  intro p n
  have hp : p = _ := ofMatrix_eq h
  have hn : n = _ := matrix_ofMatrix_eq h
  have hpos := length_pos h
  refine ⟨?_, ?_, ?_, ?_, length_matrix_ofMatrix h, ?_, matrix_ofMatrix_of_orthogonal h⟩
  · rw [hp]
    exact ⟨rfl, rfl⟩
  · rw [hp]
    exact ⟨hpos, cosine_direction h, sine_direction .., direction_mem ..⟩
  · rw [hn]
    exact ⟨rfl, rfl⟩
  · rw [hn]
    ring
  · rw [determinant_matrix_ofMatrix h, ← verticalScale_neg_iff]
    exact smul_neg_iff_of_pos_left hpos

/-- A map that mirrors, turns and stretches. -/
def mirrored : Matrix ℝ := ⟨3, 4, 4, -3, 5, 6⟩

theorem matrix_ofMatrix_mirrored :
    (mirrored.a, mirrored.b) ≠ (0, 0) ∧
      mirrored.a * mirrored.c + mirrored.b * mirrored.d = 0 ∧
      (Params.ofMatrix mirrored).matrix = mirrored ∧
      (Params.ofMatrix mirrored).matrix.determinant < 0 := by
  have hne : (mirrored.a, mirrored.b) ≠ (0, 0) := by simp [mirrored]
  have horthogonal : mirrored.a * mirrored.c + mirrored.b * mirrored.d = 0 := by
    norm_num [mirrored]
  have hmirrors : mirrored.determinant < 0 := by norm_num [mirrored, Matrix.determinant]
  obtain ⟨-, -, -, -, -, hside, hsame⟩ := matrix_ofMatrix_up_to_shear hne
  exact ⟨hne, horthogonal, hsame horthogonal, hside.2 hmirrors⟩

end VectorIcon.Affine
