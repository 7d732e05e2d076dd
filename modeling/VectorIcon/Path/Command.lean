/-!
# Drawing commands

A path is a list of commands over a number type. Every command but `close` has a frame: its points are
absolute, or relative to the current point. A command is given by its letter and its arguments
(`ofArguments?`), and both can be read back from it (`letter`, `arguments`).
-/

namespace VectorIcon.Path

/-- What the points of a command are measured from. -/
inductive Frame
  | absolute
  | relative
  deriving Repr, DecidableEq

/-- The commands that draw or move. -/
inductive Kind
  | moveTo
  | lineTo
  | horizontalTo
  | verticalTo
  | curveTo
  | quadTo
  | smoothCurveTo
  | smoothQuadTo
  | arcTo
  deriving Repr, DecidableEq

/-- A letter of path data. -/
inductive Letter
  | draw (frame : Frame) (kind : Kind)
  | close
  deriving Repr, DecidableEq

/-- The place of one argument. -/
inductive Slot
  | number
  | flag
  deriving Repr, DecidableEq

/-- One argument of a command. -/
inductive Argument (α : Type) where
  | number (value : α)
  | flag (value : Bool)
  deriving Repr, DecidableEq

/-- One drawing command. The first control point of a smooth curve mirrors the one before it. -/
inductive Command (α : Type) where
  | moveTo (frame : Frame) (x y : α)
  | lineTo (frame : Frame) (x y : α)
  | horizontalTo (frame : Frame) (x : α)
  | verticalTo (frame : Frame) (y : α)
  | curveTo (frame : Frame) (x₁ y₁ x₂ y₂ x₃ y₃ : α)
  | quadTo (frame : Frame) (x₁ y₁ x₂ y₂ : α)
  | smoothCurveTo (frame : Frame) (x₁ y₁ x₂ y₂ : α)
  | smoothQuadTo (frame : Frame) (x y : α)
  | arcTo (frame : Frame) (radiusX radiusY angle : α) (large sweep : Bool) (x y : α)
  | close
  deriving Repr, DecidableEq

/-- The command that an upper case letter stands for. -/
def Kind.ofUpper? : Char → Option Kind
  | 'M' => some .moveTo
  | 'L' => some .lineTo
  | 'H' => some .horizontalTo
  | 'V' => some .verticalTo
  | 'C' => some .curveTo
  | 'Q' => some .quadTo
  | 'S' => some .smoothCurveTo
  | 'T' => some .smoothQuadTo
  | 'A' => some .arcTo
  | _ => none

/-- The arguments of a command in order. -/
def Kind.slots : Kind → List Slot
  | .moveTo | .lineTo | .smoothQuadTo => [.number, .number]
  | .horizontalTo | .verticalTo => [.number]
  | .curveTo => [.number, .number, .number, .number, .number, .number]
  | .quadTo | .smoothCurveTo => [.number, .number, .number, .number]
  | .arcTo => [.number, .number, .number, .flag, .flag, .number, .number]

/-- The letter of a character: upper case for absolute points, lower case for relative ones. -/
def Letter.ofChar? (c : Char) : Option Letter :=
  if c = 'Z' ∨ c = 'z' then some .close
  else (Kind.ofUpper? c.toUpper).map (.draw (if c.isUpper then .absolute else .relative))

/-- The arguments that a letter asks for. -/
def Letter.slots : Letter → List Slot
  | .draw _ kind => kind.slots
  | .close => []

/-- The letter for the further groups of arguments after one: lines follow a move. -/
def Kind.next : Kind → Kind
  | .moveTo => .lineTo
  | kind => kind

/-- The number of arguments of a character of path data. -/
def arity? (c : Char) : Option Nat :=
  (Letter.ofChar? c).map fun letter => letter.slots.length

namespace Command

variable {α : Type}

/-- The command of a letter and its arguments; none when they do not fit. -/
def ofArguments? : Letter → List (Argument α) → Option (Command α)
  | .draw f .moveTo, [.number x, .number y] => some (.moveTo f x y)
  | .draw f .lineTo, [.number x, .number y] => some (.lineTo f x y)
  | .draw f .horizontalTo, [.number x] => some (.horizontalTo f x)
  | .draw f .verticalTo, [.number y] => some (.verticalTo f y)
  | .draw f .curveTo, [.number x₁, .number y₁, .number x₂, .number y₂, .number x₃, .number y₃] =>
    some (.curveTo f x₁ y₁ x₂ y₂ x₃ y₃)
  | .draw f .quadTo, [.number x₁, .number y₁, .number x₂, .number y₂] =>
    some (.quadTo f x₁ y₁ x₂ y₂)
  | .draw f .smoothCurveTo, [.number x₁, .number y₁, .number x₂, .number y₂] =>
    some (.smoothCurveTo f x₁ y₁ x₂ y₂)
  | .draw f .smoothQuadTo, [.number x, .number y] => some (.smoothQuadTo f x y)
  | .draw f .arcTo,
      [.number rx, .number ry, .number angle, .flag large, .flag sweep, .number x, .number y] =>
    some (.arcTo f rx ry angle large sweep x y)
  | .close, [] => some .close
  | _, _ => none

/-- The letter that writes a command. -/
def letter : Command α → Letter
  | .moveTo f .. => .draw f .moveTo
  | .lineTo f .. => .draw f .lineTo
  | .horizontalTo f .. => .draw f .horizontalTo
  | .verticalTo f .. => .draw f .verticalTo
  | .curveTo f .. => .draw f .curveTo
  | .quadTo f .. => .draw f .quadTo
  | .smoothCurveTo f .. => .draw f .smoothCurveTo
  | .smoothQuadTo f .. => .draw f .smoothQuadTo
  | .arcTo f .. => .draw f .arcTo
  | .close => .close

/-- The arguments of a command in order. -/
def arguments : Command α → List (Argument α)
  | .moveTo _ x y => [.number x, .number y]
  | .lineTo _ x y => [.number x, .number y]
  | .horizontalTo _ x => [.number x]
  | .verticalTo _ y => [.number y]
  | .curveTo _ x₁ y₁ x₂ y₂ x₃ y₃ =>
    [.number x₁, .number y₁, .number x₂, .number y₂, .number x₃, .number y₃]
  | .quadTo _ x₁ y₁ x₂ y₂ => [.number x₁, .number y₁, .number x₂, .number y₂]
  | .smoothCurveTo _ x₁ y₁ x₂ y₂ => [.number x₁, .number y₁, .number x₂, .number y₂]
  | .smoothQuadTo _ x y => [.number x, .number y]
  | .arcTo _ rx ry angle large sweep x y =>
    [.number rx, .number ry, .number angle, .flag large, .flag sweep, .number x, .number y]
  | .close => []

/-- A value in a slot: a flag is set by any number but zero. -/
def argument [BEq α] [OfNat α 0] : Slot → α → Argument α
  | .number, v => .number v
  | .flag, v => .flag (v != 0)

/-- The command of a character and exactly the values that its letter asks for. -/
def ofValues? [BEq α] [OfNat α 0] (c : Char) (values : List α) : Option (Command α) := do
  let letter ← Letter.ofChar? c
  if letter.slots.length = values.length then
    ofArguments? letter (List.zipWith argument letter.slots values)
  else none

/-- The points are relative to the current point. -/
def isRelative (c : Command α) : Bool :=
  match c.letter with
  | .draw .relative _ => true
  | _ => false

/-- The command only moves the current point. -/
def isMove (c : Command α) : Bool :=
  match c.letter with
  | .draw _ .moveTo => true
  | _ => false

/-- A command is given back by its letter and its arguments. -/
@[simp]
theorem ofArguments?_letter_arguments (c : Command α) :
    ofArguments? c.letter c.arguments = some c := by
  cases c <;> rfl

end Command

end VectorIcon.Path
