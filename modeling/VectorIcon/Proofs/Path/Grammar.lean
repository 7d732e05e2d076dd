import VectorIcon.Path.Reader
import VectorIcon.Proofs.Number.Munch

/-!
# The grammar of path data

Path data is a sequence of segments, with separators between any two tokens. A segment is a closing
letter, or a drawing letter and one or more groups of arguments: the first group is a command of the
letter, the further groups repeat it, with lines after a move. `PathData s cs` says that the text `s`
has a derivation whose commands are `cs` in text order.

Tokens are read in context. A number is the longest numeral at its place, so what follows a token is a
part of each relation.
-/

namespace VectorIcon.Path

open Number

/-- The drawing letters with what they stand for. -/
def drawingLetters : List (Char × Frame × Kind) :=
  [('M', .absolute, .moveTo), ('m', .relative, .moveTo),
    ('L', .absolute, .lineTo), ('l', .relative, .lineTo),
    ('H', .absolute, .horizontalTo), ('h', .relative, .horizontalTo),
    ('V', .absolute, .verticalTo), ('v', .relative, .verticalTo),
    ('C', .absolute, .curveTo), ('c', .relative, .curveTo),
    ('S', .absolute, .smoothCurveTo), ('s', .relative, .smoothCurveTo),
    ('Q', .absolute, .quadTo), ('q', .relative, .quadTo),
    ('T', .absolute, .smoothQuadTo), ('t', .relative, .smoothQuadTo),
    ('A', .absolute, .arcTo), ('a', .relative, .arcTo)]

/-- ASCII blanks and commas, any number of them. -/
def IsGap (s : List Char) : Prop :=
  ∀ c ∈ s, c ∈ [' ', '\t', '\n', '\x0c', '\r', ',']

/-- The text begins with an argument, and the rest follows it. A flag is one character. -/
inductive ArgumentAt : Slot → List Char → Argument Float → List Char → Prop
  | number {s n rest} : Munches s n rest → isFinite n.toFloat = true →
      ArgumentAt .number s (.number n.toFloat) rest
  | unset {rest} : ArgumentAt .flag ('0' :: rest) (.flag false) rest
  | set {rest} : ArgumentAt .flag ('1' :: rest) (.flag true) rest

/-- The text begins with arguments for some slots, each after a gap. -/
inductive ArgumentsAt : List Slot → List Char → List (Argument Float) → List Char → Prop
  | nil {s} : ArgumentsAt [] s [] s
  | cons {slot slots gap s a s' as rest} : IsGap gap → ArgumentAt slot s a s' →
      ArgumentsAt slots s' as rest → ArgumentsAt (slot :: slots) (gap ++ s) (a :: as) rest

/-- The text begins with the arguments of a command of the given letter. -/
def GroupAt (frame : Frame) (kind : Kind) (s : List Char) (command : Command Float)
    (rest : List Char) : Prop :=
  command.letter = .draw frame kind ∧ ArgumentsAt kind.slots s command.arguments rest

/-- The text begins with one or more groups, the first for `kind` and the others for what repeats it: lines
repeat a move, and everything else is repeated as it is. -/
inductive GroupsAt (frame : Frame) : Kind → List Char → List (Command Float) → List Char → Prop
  | last {kind s c rest} : GroupAt frame kind s c rest → GroupsAt frame kind s [c] rest
  | more {kind s c s' cs rest} : GroupAt frame kind s c s' →
      GroupsAt frame (if kind = .moveTo then .lineTo else kind) s' cs rest →
      GroupsAt frame kind s (c :: cs) rest

/-- The text has a derivation with the given commands. -/
inductive PathData : List Char → List (Command Float) → Prop
  | done {gap} : IsGap gap → PathData gap []
  | close {gap c s cs} : IsGap gap → c ∈ ['Z', 'z'] → PathData s cs →
      PathData (gap ++ c :: s) (.close :: cs)
  | draw {gap c frame kind s cs s' cs'} : IsGap gap → (c, frame, kind) ∈ drawingLetters →
      GroupsAt frame kind s cs s' → PathData s' cs' → PathData (gap ++ c :: s) (cs ++ cs')

end VectorIcon.Path
