import VectorIcon.Text.Blank
import VectorIcon.Number.Binary

/-!
# Written numbers

A numeral is an optional sign, digits with at most one point, and an optional power of ten. `scan?`
takes the longest numeral at the start of a text: an exponent mark belongs to it only when a digit
follows, so that `1.5.5` begins with `1.5` and `2em` with `2`. `read?` asks for a numeral and nothing
else, with a finite value.
-/

namespace VectorIcon.Number

open Text

/-- A numeral: `± whole.fraction · 10 ^ exponent`. -/
structure Numeral where
  negative : Bool
  whole : List Char
  fraction : List Char
  exponent : Int
  deriving Repr, DecidableEq

namespace Numeral

/-- The digits without the point, as one number. -/
def digits (n : Numeral) : Nat :=
  decimalNumber (n.whole ++ n.fraction)

/-- The power of ten that `digits` is multiplied with. -/
def scale (n : Numeral) : Int :=
  n.exponent - n.fraction.length

/-- The double nearest to `m · 10 ^ e`. Magnitudes far outside the doubles are settled by the count
of digits alone. -/
def nearestDouble (m : Nat) (e : Int) : Float :=
  let width : Int := (Nat.toDigits 10 m).length
  if m = 0 then 0.0
  else if 310 < width + e then 1.0 / 0.0
  else if width + e < -330 then 0.0
  else Float.ofScientific m (e < 0) e.natAbs

/-- The double nearest to the numeral. -/
def toFloat (n : Numeral) : Float :=
  let v := nearestDouble n.digits n.scale
  if n.negative then -v else v

end Numeral

/-- The rest of a text after an optional sign, and whether the sign is a minus. -/
def scanSign (s : List Char) : Bool × List Char :=
  match s with
  | '-' :: rest => (true, rest)
  | '+' :: rest => (false, rest)
  | _ => (false, s)

/-- The digits at the start of a text and the rest. -/
def scanDigits (s : List Char) : List Char × List Char :=
  (s.takeWhile isDigit, s.dropWhile isDigit)

/-- The digits after a point, when there is one. -/
def scanFraction (s : List Char) : List Char × List Char :=
  match s with
  | '.' :: rest => scanDigits rest
  | _ => ([], s)

/-- The power of ten, when a mark with at least one digit stands at the start. -/
def scanExponent (s : List Char) : Int × List Char :=
  match s with
  | c :: rest =>
    if c = 'e' ∨ c = 'E' then
      let (negative, afterSign) := scanSign rest
      let (digits, rest) := scanDigits afterSign
      if digits.isEmpty then (0, s)
      else
        let value : Int := decimalNumber digits
        (if negative then -value else value, rest)
    else (0, s)
  | [] => (0, s)

/-- The longest numeral at the start of a text, and the rest. -/
def scan? (s : List Char) : Option (Numeral × List Char) :=
  let (negative, afterSign) := scanSign s
  let (whole, afterWhole) := scanDigits afterSign
  let (fraction, afterFraction) := scanFraction afterWhole
  if whole.isEmpty && fraction.isEmpty then none
  else
    let (exponent, rest) := scanExponent afterFraction
    some (⟨negative, whole, fraction, exponent⟩, rest)

/-- The finite value of a text that is one numeral. -/
def read? (s : List Char) : Option Float :=
  match scan? s with
  | some (n, []) => finite? n.toFloat
  | _ => none

theorem length_scanSign_le (s : List Char) : (scanSign s).2.length ≤ s.length := by
  unfold scanSign; split <;> simp

theorem length_scanFraction_le (s : List Char) : (scanFraction s).2.length ≤ s.length := by
  unfold scanFraction scanDigits
  split
  · exact Nat.le_succ_of_le (length_dropWhile_le _ _)
  · exact Nat.le_refl _

theorem length_scanExponent_le (s : List Char) : (scanExponent s).2.length ≤ s.length := by
  unfold scanExponent scanDigits
  split
  next c rest =>
    split
    · dsimp only
      split
      · exact Nat.le_refl _
      · exact Nat.le_succ_of_le
          (Nat.le_trans (length_dropWhile_le _ _) (length_scanSign_le rest))
    · exact Nat.le_refl _
  · exact Nat.le_refl _

/-- Scanning a numeral consumes at least one character. -/
theorem length_lt_of_scan? {s rest : List Char} {n : Numeral} (h : scan? s = some (n, rest)) :
    rest.length < s.length := by
  unfold scan? at h
  dsimp only at h
  split at h
  · simp at h
  next hne =>
    simp only [Option.some.injEq, Prod.mk.injEq] at h
    obtain ⟨-, rfl⟩ := h
    refine Nat.lt_of_le_of_lt (length_scanExponent_le _) ?_
    refine Nat.lt_of_lt_of_le ?_ (length_scanSign_le s)
    generalize (scanSign s).2 = t at hne ⊢
    unfold scanDigits at hne ⊢
    cases hw : t.takeWhile isDigit with
    | cons d w =>
      have hlen := congrArg List.length (List.takeWhile_append_dropWhile (p := isDigit) (l := t))
      simp only [hw, List.length_append, List.length_cons] at hlen
      exact Nat.lt_of_le_of_lt (length_scanFraction_le _) (by dsimp only; omega)
    | nil =>
      simp only [hw, List.isEmpty_nil, Bool.true_and] at hne
      have hle := length_dropWhile_le isDigit t
      generalize t.dropWhile isDigit = u at hne hle ⊢
      unfold scanFraction at hne ⊢
      split at hne
      next rest =>
        have := length_dropWhile_le isDigit rest
        simp only [scanDigits, List.length_cons] at hle ⊢
        omega
      · simp at hne

end VectorIcon.Number
