import VectorIcon.Number.Binary

/-!
# The fewest digits that read back

The reals that round to a double form an interval around it, with both ends included exactly when the
mantissa is even. Among the decimal grids, from the coarsest down, the first with a point in the
interval gives the digits, and of its two points next to the double the nearer one is taken. A double
halfway between two points goes up or to the even one, as a `Tie` says.

All is counted in quarters of the last binary place, so that the interval has whole ends.
-/

namespace VectorIcon.Number

/-- Which of two equally near points is taken. -/
inductive Tie
  | up
  | even
  deriving Repr, DecidableEq

/-- Whether the upper of two neighbours is taken, by the distances to the lower and to the upper. -/
def Tie.takesUpper (t : Tie) (lower below above : Nat) : Bool :=
  above < below || (above == below && (t == .up || lower % 2 == 1))

/-- The interval of reals that round to a positive double, in multiples of `2 ^ exponent`. -/
structure Interval where
  low : Nat
  middle : Nat
  high : Nat
  exponent : Int
  closed : Bool

/-- The interval of `mantissa · 2 ^ exponent`; below a power of two the doubles lie twice as dense. -/
def Interval.ofBinary (b : Binary) : Interval where
  low := 4 * b.mantissa - if b.mantissa = leadingBit ∧ -1074 < b.exponent then 1 else 2
  middle := 4 * b.mantissa
  high := 4 * b.mantissa + 2
  exponent := b.exponent - 2
  closed := b.mantissa % 2 == 0

/-- The numerator of `n · 2 ^ e / 10 ^ k`. -/
def scaledNumerator (n : Nat) (e k : Int) : Nat :=
  n * (if 0 ≤ e then 1 <<< e.natAbs else 1) * (if k < 0 then Nat.pow 10 k.natAbs else 1)

/-- The denominator of `n · 2 ^ e / 10 ^ k`. -/
def scaledDenominator (e k : Int) : Nat :=
  (if e < 0 then 1 <<< e.natAbs else 1) * (if 0 ≤ k then Nat.pow 10 k.natAbs else 1)

/-- The point of the grid `10 ^ k` in the interval that lies nearest to the middle. -/
def Interval.point? (i : Interval) (tie : Tie) (k : Int) : Option Nat :=
  let d := scaledDenominator i.exponent k
  let low := scaledNumerator i.low i.exponent k
  let middle := scaledNumerator i.middle i.exponent k
  let high := scaledNumerator i.high i.exponent k
  let inside := fun n => if i.closed then low ≤ n * d ∧ n * d ≤ high else low < n * d ∧ n * d < high
  let lower := middle / d
  if inside lower then
    if inside (lower + 1) ∧ tie.takesUpper lower (middle - lower * d) ((lower + 1) * d - middle) then
      some (lower + 1)
    else some lower
  else if inside (lower + 1) then some (lower + 1)
  else none

/-- The first grid at or below `10 ^ k` with a point in the interval, tried on `steps` grids. -/
def Interval.search (i : Interval) (tie : Tie) : Nat → Int → Nat × Int
  | 0, k => (0, k)
  | steps + 1, k =>
    match i.point? tie k with
    | some n => (n, k)
    | none => i.search tie steps (k - 1)

/-- The digits and the power of ten of the shortest decimal that reads back as a positive double. -/
def shortest (tie : Tie) (b : Binary) : Nat × Int :=
  let width : Int := b.mantissa.log2 + 1 + b.exponent
  (Interval.ofBinary b).search tie 40 (width * 30103 / 100000 + 2)

end VectorIcon.Number
