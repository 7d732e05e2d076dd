import VectorIcon.Number.Shortest

/-!
# Numbers as text

A finite double is written with the fewest digits that read back. A `Layout` says which magnitudes
are written without a power of ten and whether whole numbers keep a zero after the point.
-/

namespace VectorIcon.Number

/-- How digits and a power of ten become text. -/
structure Layout where
  /-- The least and the greatest exponent of the leading digit that are written out; none for all. -/
  written : Option (Int × Int)
  /-- Whole numbers keep a zero after the point. -/
  keepsZero : Bool
  /-- The choice between two shortest decimals that are equally near. -/
  tie : Tie

/-- Never a power of ten, and no point in a whole number. -/
def Layout.plain : Layout := ⟨none, false, .up⟩

/-- Numbers of data files: a power of ten from `10 ^ 16` on and below `10 ^ -5`. -/
def Layout.data : Layout := ⟨some (-5, 15), true, .even⟩

/-- The text of `digits · 10 ^ exponent` without a power of ten. -/
def positional (keepsZero : Bool) (digits : List Char) (exponent : Int) : List Char :=
  let places := exponent.natAbs
  if 0 ≤ exponent then
    digits ++ List.replicate places '0' ++ (if keepsZero then ['.', '0'] else [])
  else if places < digits.length then
    digits.take (digits.length - places) ++ '.' :: digits.drop (digits.length - places)
  else '0' :: '.' :: List.replicate (places - digits.length) '0' ++ digits

/-- The text of digits with a point after the first and the power of ten of that first digit. -/
def scientific (digits : List Char) (leading : Int) : List Char :=
  let mantissa := match digits with
    | d :: e :: rest => d :: '.' :: e :: rest
    | _ => digits
  mantissa ++ 'e' :: (if leading < 0 then '-' else '+') :: Nat.toDigits 10 leading.natAbs

/-- The text of a positive double or zero. -/
def Layout.magnitude (l : Layout) (b : Binary) : List Char :=
  if b.mantissa = 0 then positional l.keepsZero ['0'] 0
  else
    let (n, exponent) := shortest l.tie b
    let digits := Nat.toDigits 10 n
    let leading := exponent + digits.length - 1
    match l.written with
    | some (least, greatest) =>
      if least ≤ leading ∧ leading ≤ greatest then positional l.keepsZero digits exponent
      else scientific digits leading
    | none => positional l.keepsZero digits exponent

/-- The text of a finite double. -/
def Layout.finite (l : Layout) (b : Binary) : String :=
  String.ofList (if b.negative then '-' :: l.magnitude b else l.magnitude b)

/-- A double without a power of ten; also the infinities and no number have a text. -/
def display (v : Float) : String :=
  match Binary.ofFloat? v with
  | some b => Layout.plain.finite b
  | none => if 0.0 < v then "inf" else if v < 0.0 then "-inf" else "NaN"

end VectorIcon.Number
