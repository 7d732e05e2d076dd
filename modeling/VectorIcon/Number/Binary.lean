/-!
# Doubles as binary fractions

A finite double is `± mantissa · 2 ^ exponent`; `Binary.ofFloat?` reads the three parts off the bits.
What depends on the exact value of a double is computed here on natural numbers: the nearest whole
number (`roundHalfAway`), the remainder of a division (`remainder`) and the length of a vector
(`hypotenuse`).
-/

namespace VectorIcon.Number

/-- The number `mantissa · 2 ^ exponent`, negated when `negative`. -/
structure Binary where
  negative : Bool
  mantissa : Nat
  exponent : Int
  deriving Repr, DecidableEq

/-- The leading bit of a mantissa of 53 bits, which the bits of a double leave out. -/
def leadingBit : Nat := 1 <<< 52

namespace Binary

/-- The parts of a finite double; none for an infinity and for no number. -/
def ofFloat? (v : Float) : Option Binary :=
  let bits := v.toBits.toNat
  let negative := bits >>> 63 == 1
  let scale : Nat := (bits >>> 52) % 2048
  let fraction : Nat := bits % leadingBit
  if scale = 2047 then none
  else if scale = 0 then some ⟨negative, fraction, -1074⟩
  else some ⟨negative, leadingBit + fraction, scale - 1075⟩

/-- The whole number nearest to the magnitude, a half going up. -/
def roundMagnitude (b : Binary) : Nat :=
  if b.exponent < 0 then
    (2 * b.mantissa + 1 <<< b.exponent.natAbs) >>> (b.exponent.natAbs + 1)
  else b.mantissa <<< b.exponent.natAbs

/-- A magnitude with the sign of `b`. -/
def signed (b : Binary) (magnitude : Nat) : Int :=
  if b.negative then -(magnitude : Int) else magnitude

/-- The bits of a number with at most 53 significant bits. -/
def toFloat (b : Binary) : Float :=
  let sign := if b.negative then 1 <<< 63 else 0
  let width := if b.mantissa = 0 then 0 else b.mantissa.log2 + 1
  if width = 0 then Float.ofBits (UInt64.ofNat sign)
  else
    let lowest := b.exponent + width - 53
    let exponent := if lowest < -1074 then -1074 else lowest
    let mantissa :=
      if b.exponent < exponent then b.mantissa >>> (exponent - b.exponent).natAbs
      else b.mantissa <<< (b.exponent - exponent).natAbs
    if mantissa < leadingBit then Float.ofBits (UInt64.ofNat (sign + mantissa))
    else
      Float.ofBits (UInt64.ofNat
        (sign + (exponent + 1075).natAbs * leadingBit + (mantissa - leadingBit)))

end Binary

/-- A double that is neither an infinity nor no number. -/
def isFinite (v : Float) : Bool :=
  (Binary.ofFloat? v).isSome

/-- A finite double, or none. -/
def finite? (v : Float) : Option Float :=
  if isFinite v then some v else none

/-- The whole number nearest to a double, a half going away from zero. -/
def nearestWhole? (v : Float) : Option Int :=
  (Binary.ofFloat? v).map fun b => b.signed b.roundMagnitude

/-- A double rounded to the nearest whole number, a half going away from zero. -/
def roundHalfAway (v : Float) : Float :=
  match Binary.ofFloat? v with
  | none => v
  | some b => if 0 ≤ b.exponent then v else Binary.toFloat ⟨b.negative, b.roundMagnitude, 0⟩

/-- The remainder of a division with a whole quotient rounded toward zero, which is exact. -/
def remainder (v w : Float) : Float :=
  match Binary.ofFloat? v, Binary.ofFloat? w with
  | some a, some b =>
    if b.mantissa = 0 then 0.0 / 0.0
    else
      let exponent := min a.exponent b.exponent
      let x := a.mantissa <<< (a.exponent - exponent).natAbs
      let y := b.mantissa <<< (b.exponent - exponent).natAbs
      Binary.toFloat ⟨a.negative, x % y, exponent⟩
  | some _, none => v
  | none, _ => 0.0 / 0.0

/-- The remainder that is never negative, for a positive divisor. -/
def modulo (v w : Float) : Float :=
  let r := remainder v w
  if r < 0.0 then r + w else r

/-- The whole part of the square root of `n`, of which `r` is found and `bits` binary places are left. -/
def rootFrom (n : Nat) : Nat → Nat → Nat
  | 0, r => r
  | bits + 1, r =>
    let next := r + 1 <<< bits
    rootFrom n bits (if next * next ≤ n then next else r)

theorem rootFrom_mul_self_le {n r : Nat} (bits : Nat) (h : r * r ≤ n) :
    rootFrom n bits r * rootFrom n bits r ≤ n := by
  induction bits generalizing r with
  | zero => exact h
  | succ bits ih => unfold rootFrom; dsimp only; split <;> exact ih ‹_›

theorem lt_rootFrom_succ_mul_self {n r bits : Nat}
    (h : n < (r + 1 <<< bits) * (r + 1 <<< bits)) :
    n < (rootFrom n bits r + 1) * (rootFrom n bits r + 1) := by
  induction bits generalizing r with
  | zero => simpa [rootFrom] using h
  | succ bits ih =>
    unfold rootFrom
    dsimp only
    split
    next => exact ih (by rwa [Nat.add_assoc, ← Nat.two_mul, ← Nat.shiftLeft_succ])
    next hlt => exact ih (Nat.lt_of_not_le hlt)

/-- The whole number nearest to the square root of `n / d`, a half going to the even one. -/
def nearestRoot (n d : Nat) : Nat :=
  let halves := rootFrom (4 * n / d) ((4 * n / d).log2 / 2 + 1) 0
  let nearest := (halves + 1) / 2
  if halves * halves * d = 4 * n ∧ halves % 2 = 1 ∧ nearest % 2 = 1 then nearest - 1 else nearest

/-- The double nearest to `√n · 2 ^ exponent`. -/
def rootToFloat (n : Nat) (exponent : Int) : Float :=
  let lowest := max (-1074) (exponent + (n.log2 / 2 + 1) - 53)
  let mantissa :=
    if lowest < exponent then nearestRoot (n <<< (2 * (exponent - lowest).natAbs)) 1
    else nearestRoot n (1 <<< (2 * (lowest - exponent).natAbs))
  if 1023 < lowest + mantissa.log2 then 1.0 / 0.0 else Binary.toFloat ⟨false, mantissa, lowest⟩

/-- The length of the vector `(v, w)`, to the nearest double. -/
def hypotenuse (v w : Float) : Float :=
  match Binary.ofFloat? v, Binary.ofFloat? w with
  | some a, some b =>
    let exponent := min a.exponent b.exponent
    let x := a.mantissa <<< (a.exponent - exponent).natAbs
    let y := b.mantissa <<< (b.exponent - exponent).natAbs
    rootToFloat (x * x + y * y) exponent
  | _, _ => if v.abs == 1.0 / 0.0 || w.abs == 1.0 / 0.0 then 1.0 / 0.0 else 0.0 / 0.0

/-- A double moved into the interval between two bounds. -/
def clamp (low high v : Float) : Float :=
  if v < low then low else if high < v then high else v

end VectorIcon.Number
