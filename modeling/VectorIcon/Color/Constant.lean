import VectorIcon.Color.Argb

/-!
# Colors that generated code has names for

The constants of the graphics library that generated code is written against, matched without alpha.
-/

namespace VectorIcon.Color

/-- The constants with their packed red, green and blue channels. -/
def constants : List (String × UInt32) := [
  ("Black", 0x000000),
  ("DarkGray", 0x444444),
  ("Gray", 0x888888),
  ("LightGray", 0xCCCCCC),
  ("White", 0xFFFFFF),
  ("Red", 0xFF0000),
  ("Green", 0x00FF00),
  ("Blue", 0x0000FF),
  ("Yellow", 0xFFFF00),
  ("Cyan", 0x00FFFF),
  ("Magenta", 0xFF00FF)]

/-- The constant with the same red, green and blue channels. -/
def constantName? (c : Color) : Option String :=
  (constants.find? fun entry => entry.2 == c.rgb).map Prod.fst

end VectorIcon.Color
