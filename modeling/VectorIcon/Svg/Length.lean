import VectorIcon.Number.Numeral

/-!
# Lengths, sizes and references

The small notations in attributes of drawings. A unit of length counts for nothing; a percentage has no
length.
-/

namespace VectorIcon.Svg

open Text Number

/-- The units of length; a unit comes before those that it ends with. -/
def units : List String :=
  ["rem", "dip", "px", "pt", "pc", "mm", "cm", "in", "dp", "sp", "em"]

/-- A text without its unit. -/
def withoutUnit (s : List Char) : List Char :=
  (units.findSome? fun unit => before? unit.toList s).getD s

/-- The number of a length. -/
def readLength? (value : String) : Option Float :=
  let s := trim value.toList
  if ['%'].isSuffixOf s then none else read? (trim (withoutUnit s))

/-- The side of an icon without a size. -/
def defaultSize : Float := 24

/-- The width or height of a drawing: a positive length, or the default. -/
def readSize (value : Option String) : Float :=
  ((value.bind readLength?).filter fun v => decide (0 < v)).getD defaultSize

/-- The width and height of the visible area, when four numbers are given and both are positive. -/
def readViewBox? (value : String) : Option (Float × Float) :=
  match (fields (fun c => isBlank c || c == ',') value.toList).mapM read? with
  | some [_, _, w, h] => if 0 < w ∧ 0 < h then some (w, h) else none
  | _ => none

/-- A number or a percentage, as a fraction. -/
def readFraction? (value : String) : Option Float :=
  let s := trim value.toList
  match before? ['%'] s with
  | some percent => (read? (trim percent)).map (· / 100)
  | none => read? s

/-- An opacity between zero and one. -/
def readOpacity? (value : String) : Option Float :=
  (readFraction? value).map (clamp 0 1)

/-- A coordinate of a gradient; a percentage stands for its number. -/
def readCoordinate? (value : String) : Option Float :=
  read? (trim (dropEndWhile (· == '%') (trim value.toList)))

/-- The name in `url(#name)`, perhaps in quotes and followed by another paint. -/
def referencedId? (value : String) : Option String := do
  let inner ← after? "url(".toList (trim value.toList)
  let (body, _) ← cut? ')' inner
  let id := (trimBy (fun c => c == '"' || c == '\x27') (trim body)).dropWhile (· == '#')
  if id.isEmpty then none else some (String.ofList id)

end VectorIcon.Svg
