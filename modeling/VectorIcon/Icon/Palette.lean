import VectorIcon.Icon.Basic
import VectorIcon.Text.Pieces

/-!
# The colors of an icon

The colors that the paths of an icon are painted with, as keys: `#RRGGBB` for every color, and also
`#AARRGGBB` for one that can be seen through.
-/

namespace VectorIcon

/-- The key of a color without its alpha channel. -/
def Color.shortKey (c : Color) : String :=
  "#" ++ Color.hexText 6 c.argb

/-- The key of a color with its alpha channel. -/
def Color.longKey (c : Color) : String :=
  "#" ++ Color.hexText 8 c.argb

/-- The keys of a color. -/
def Color.keys (c : Color) : List String :=
  if c.isSolid then [c.shortKey] else [c.shortKey, c.longKey]

namespace Icon

/-- The colors of a path: those of its fill and then those of its line. -/
def Outline.colors (o : Outline) : List Color :=
  (o.fill.toList ++ o.stroke.toList).flatMap Paint.colors

/-- The colors that an icon is painted with, from left to right. -/
def colors (icon : Icon) : List Color :=
  icon.outlines.flatMap Outline.colors

/-- The keys of the colors that an icon is painted with, in order. -/
def palette (icon : Icon) : List String :=
  Text.sortedSet (icon.colors.flatMap Color.keys)

/-- An icon has more than one key. -/
def isMulticolor (icon : Icon) : Bool :=
  1 < icon.palette.length

end Icon

end VectorIcon
