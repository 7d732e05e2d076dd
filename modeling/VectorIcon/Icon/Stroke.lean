import VectorIcon.Text.Blank

/-!
# Words for lines and fills
-/

namespace VectorIcon.Icon

/-- The end of a line. -/
inductive Cap
  | butt
  | round
  | square
  deriving Repr, DecidableEq

/-- The corner of a line. -/
inductive Join
  | miter
  | round
  | bevel
  deriving Repr, DecidableEq

/-- Which points lie inside of a path that crosses itself. -/
inductive FillRule
  | nonZero
  | evenOdd
  deriving Repr, DecidableEq

/-- A word as it is compared: in lower case and without blanks around it. -/
def word (value : String) : String :=
  String.ofList (Text.lower (Text.trim value.toList))

/-- The line end of a word. -/
def Cap.ofWord? (value : String) : Option Cap :=
  match word value with
  | "butt" => some .butt
  | "round" => some .round
  | "square" => some .square
  | _ => none

/-- The line corner of a word; the newer kinds of pointed corners are plain ones. -/
def Join.ofWord? (value : String) : Option Join :=
  match word value with
  | "miter" => some .miter
  | "miter-clip" => some .miter
  | "arcs" => some .miter
  | "round" => some .round
  | "bevel" => some .bevel
  | _ => none

/-- The fill rule of a word. -/
def FillRule.ofWord? (value : String) : Option FillRule :=
  match word value with
  | "nonzero" => some .nonZero
  | "evenodd" => some .evenOdd
  | _ => none

end VectorIcon.Icon
