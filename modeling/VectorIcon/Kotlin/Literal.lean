import VectorIcon.Number.Layout
import VectorIcon.Text.Blank

/-!
# Literals of generated code

Numbers are rounded to six places and written with the fewest digits; what is not finite, and the
negative zero, is written as zero. In a string literal a backslash goes before backslashes, quotes and
dollar signs, and a line feed becomes an escape.
-/

namespace VectorIcon.Kotlin

open Number

/-- A double as it is written: rounded to six places, and to a whole number when one is next to it. -/
def literalValue (v : Float) : Float :=
  if isFinite v then
    let rounded := roundHalfAway (v * 1e6) / 1e6
    let nearest := roundHalfAway rounded
    let settled := if (rounded - nearest).abs < 1e-9 then nearest else rounded
    if settled == 0 then 0 else settled
  else 0

/-- A number literal. -/
def floatLiteral (v : Float) : String :=
  display (literalValue v) ++ "f"

/-- A size literal. -/
def sizeLiteral (v : Float) : String :=
  floatLiteral v ++ ".dp"

/-- The thousandths of an alpha channel, to the nearest. -/
def alphaThousandths (alpha : UInt8) : Nat :=
  (2000 * alpha.toNat + 255) / 510

/-- Three digits of a number below a thousand. -/
def threeDigits (n : Nat) : List Char :=
  [Nat.digitChar (n / 100), Nat.digitChar (n / 10 % 10), Nat.digitChar (n % 10)]

/-- An alpha channel as a fraction of one, with at most three places. -/
def alphaLiteral (alpha : UInt8) : String :=
  let k := alphaThousandths alpha
  let places := Text.dropEndWhile (· == '0') (threeDigits (k % 1000))
  let fraction := if places.isEmpty then [] else '.' :: places
  String.ofList (Nat.toDigits 10 (k / 1000) ++ fraction ++ ['f'])

/-- One character of a string literal. -/
def escapeChar (c : Char) : List Char :=
  if c = '\\' then ['\\', '\\']
  else if c = '"' then ['\\', '"']
  else if c = '$' then ['\\', '$']
  else if c = '\n' then ['\\', 'n']
  else [c]

/-- The characters of a string literal between its quotes. -/
def escape (text : String) : String :=
  String.ofList (text.toList.flatMap escapeChar)

/-- A string literal. -/
def stringLiteral (text : String) : String :=
  "\"" ++ escape text ++ "\""

end VectorIcon.Kotlin
