import VectorIcon.Color.Argb

/-!
# Hexadecimal colors

A hexadecimal color has three, four, six or eight digits, after any number of `#` marks and between any
blanks. Short forms double each digit, and a trailing alpha byte moves to the front.
-/

namespace VectorIcon.Color

/-- The color whose word has these hexadecimal digits, the most significant first. -/
def ofDigits (digits : List Nat) : Color :=
  ⟨UInt32.ofNat (digits.foldl (fun n d => 16 * n + d) 0)⟩

/-- The color of the digits that are written after the mark. -/
def ofHexDigits? : List Nat → Option Color
  | [r, g, b] => some (ofDigits [15, 15, r, r, g, g, b, b])
  | [r, g, b, a] => some (ofDigits [a, a, r, r, g, g, b, b])
  | [r, r', g, g', b, b'] => some (ofDigits [15, 15, r, r', g, g', b, b'])
  | [r, r', g, g', b, b', a, a'] => some (ofDigits [a, a', r, r', g, g', b, b'])
  | _ => none

/-- The digits of a hexadecimal color: no blanks around them and no `#` marks before. -/
def hexBody (value : List Char) : List Char :=
  (Text.trim value).dropWhile (· == '#')

/-- The color of a hexadecimal text. -/
def ofHex (value : String) : Except Error Color :=
  match ((hexBody value.toList).mapM Text.hexValue?).bind ofHexDigits? with
  | some c => .ok c
  | none => .error (.malformedHex (String.ofList (Text.trim value.toList)))

end VectorIcon.Color
