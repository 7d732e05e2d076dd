import VectorIcon.Number.Numeral
import VectorIcon.Color.Hex
import VectorIcon.Color.Keyword

/-!
# Colors as written in documents

A paint is `none`, a keyword, a hexadecimal color, or one of the functions `rgb` and `hsl` with an
optional `a` at the name's end. The arguments of a function stand between blanks, commas and slashes.
-/

namespace VectorIcon.Color

open Text Number

/-- A color function. -/
inductive Function
  | rgb
  | hsl
  deriving Repr, DecidableEq

/-- The text between the name of a function and its last parenthesis. -/
def functionBody? (s : List Char) : Option (Function × List Char) := do
  let (function, rest) ← match after? "rgb".toList s, after? "hsl".toList s with
    | some rest, _ => some (Function.rgb, rest)
    | none, some rest => some (Function.hsl, rest)
    | none, none => none
  let rest := (after? ['a'] rest).getD rest
  let inner ← after? ['('] (rest.dropWhile isBlank)
  let body ← before? [')'] inner
  if body.contains '\n' then none else some (function, body)

/-- The arguments of a color function. -/
def arguments (body : List Char) : List (List Char) :=
  fields (fun c => isBlank c || c == ',' || c == '/') body

/-- The 64-bit whole number nearest to a double; what lies outside stops at the ends. -/
def wholeChannel (v : Float) : Int :=
  match nearestWhole? v with
  | some n => max Int64.minValue.toInt (min Int64.maxValue.toInt n)
  | none => if 0.0 < v then Int64.maxValue.toInt else if v < 0.0 then Int64.minValue.toInt else 0

/-- A red, green or blue channel: a number or a percentage of 255. -/
def rgbChannel? (s : List Char) : Option Int :=
  match before? ['%'] s with
  | some percent =>
    ((read? (trim percent)).bind fun v => finite? (v * 255.0 / 100.0)).map wholeChannel
  | none => (read? s).map wholeChannel

/-- An alpha channel: a fraction of one or a percentage, scaled to 255. -/
def alphaChannel? (s : List Char) : Option Int :=
  match before? ['%'] s with
  | some percent => (read? (trim percent)).map fun v => wholeChannel (v / 100.0 * 255.0)
  | none => (read? s).map fun v => wholeChannel (v * 255.0)

/-- A percentage as a fraction between zero and one. -/
def fraction? (s : List Char) : Option Float :=
  (before? ['%'] s).bind fun percent => (read? percent).map fun v => clamp 0.0 1.0 (v / 100.0)

/-- A text without its endings `deg`, each step taking one away. -/
def withoutDegrees : Nat → List Char → List Char
  | 0, s => s
  | steps + 1, s =>
    match before? "deg".toList s with
    | some rest => withoutDegrees steps rest
    | none => s

/-- The channel at a position on the hue circle, between the low level `p` and the high level `q`. -/
def hueLevel (p q t : Float) : Float :=
  let t := modulo t 1.0
  if t < 1.0 / 6.0 then p + (q - p) * 6.0 * t
  else if t < 0.5 then q
  else if t < 2.0 / 3.0 then p + (q - p) * (2.0 / 3.0 - t) * 6.0
  else p

/-- The color of hue, saturation, lightness and alpha; none when one of them cannot be read. -/
def ofHsl? (h s l a : List Char) : Option (Except Error Color) := do
  let hue ← read? (withoutDegrees h.length h)
  let saturation ← fraction? s
  let light ← fraction? l
  let alpha ← alphaChannel? a
  let hue := modulo hue 360.0 / 360.0
  let q := if light < 0.5 then light * (1.0 + saturation)
    else light + saturation - light * saturation
  let p := 2.0 * light - q
  let level := fun t => wholeChannel (hueLevel p q t * 255.0)
  return ofChannels (level (hue + 1.0 / 3.0)) (level hue) (level (hue - 1.0 / 3.0)) alpha

/-- The color of a function and its arguments; none when they do not fit together. -/
def ofFunction? : Function → List (List Char) → Option (Except Error Color)
  | .rgb, [r, g, b] => do return ofRgb (← rgbChannel? r) (← rgbChannel? g) (← rgbChannel? b)
  | .rgb, [r, g, b, a] => do
    return ofChannels (← rgbChannel? r) (← rgbChannel? g) (← rgbChannel? b) (← alphaChannel? a)
  | .hsl, [h, s, l] => ofHsl? h s l ['1']
  | .hsl, [h, s, l, a] => ofHsl? h s l a
  | _, _ => none

/-- The color of a paint text, or none for no paint. A current color has nothing to follow here and is
black. -/
def parse (value : String) : Except Error (Option Color) :=
  let trimmed := trim value.toList
  let text := lower trimmed
  let name := String.ofList text
  if name = "none" ∨ name = "transparent" then .ok none
  else if name = "currentcolor" then .ok (some black)
  else
    match ofKeyword? name with
    | some c => .ok (some c)
    | none =>
      if text.head? = some '#' then (ofHex name).map some
      else
        match (functionBody? text).bind fun (function, body) =>
            ofFunction? function (arguments body) with
        | some result => result.map some
        | none => .error (.unsupported (String.ofList trimmed))

/-- The color with its alpha channel scaled by an opacity, rounded toward zero. -/
def withOpacity (c : Color) (opacity : Float) : Color :=
  c.withAlpha (c.alpha.toFloat * clamp 0.0 1.0 opacity).toUInt8

end VectorIcon.Color
