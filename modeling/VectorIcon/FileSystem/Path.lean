import VectorIcon.Text.Blank

/-!
# File paths

A path is kept as it is written. It is compared by its components: repeated and final slashes do not
count, and neither do single points except at the start of a relative path.
-/

namespace VectorIcon

/-- A file path as it is written. -/
structure FilePath where
  text : String
  deriving Repr, DecidableEq

namespace FilePath

/-- One step of a path. -/
inductive Component
  | root
  | here
  | up
  | name (text : String)
  deriving Repr, DecidableEq

/-- The step that a piece between slashes is; an empty one and a single point are none. -/
def step? (piece : List Char) : Option Component :=
  if piece = [] ∨ piece = ['.'] then none
  else if piece = ['.', '.'] then some .up
  else some (.name (String.ofList piece))

/-- The step that the pieces of a path start with, when it is no name: from the root, or from the
current directory. -/
def lead : List (List Char) → List Component
  | [] :: _ :: _ => [.root]
  | ['.'] :: _ => [.here]
  | _ => []

/-- The steps of a path. -/
def components (p : FilePath) : List Component :=
  let pieces := p.text.toList.splitOn '/'
  lead pieces ++ pieces.filterMap step?

/-- The last step, if it is a name. -/
def fileName? (p : FilePath) : Option String :=
  match p.components.getLast? with
  | some (.name text) => some text
  | _ => none

/-- The part of a file name before its last point and the part after it. A point at the start sets
nothing apart. -/
def cutExtension (name : List Char) : List Char × Option (List Char) :=
  let ending := (name.reverse.takeWhile (· != '.')).reverse
  let before := name.take (name.length - ending.length)
  if before.length ≤ 1 then (name, none) else (before.dropLast, some ending)

/-- The file name without its extension. -/
def stem? (p : FilePath) : Option String :=
  p.fileName?.map fun name => String.ofList (cutExtension name.toList).1

/-- The extension of the file name. -/
def extension? (p : FilePath) : Option String :=
  p.fileName?.bind fun name => (cutExtension name.toList).2.map String.ofList

/-- The path of an entry of a directory. -/
def join (p : FilePath) (entry : String) : FilePath :=
  match p.text.toList.getLast? with
  | none => ⟨entry⟩
  | some c => ⟨if c = '/' then p.text ++ entry else p.text ++ "/" ++ entry⟩

/-- A step as text. -/
def Component.text : Component → String
  | .root => "/"
  | .here => "."
  | .up => ".."
  | .name text => text

/-- The directories that a path goes through, from the top down. -/
def folders (p : FilePath) : List FilePath :=
  let steps := p.components.dropLast
  (List.range steps.length).map fun k =>
    ((steps.take (k + 1)).map Component.text).foldl join ⟨""⟩

/-- The order of steps: names come last and are ordered by their characters. -/
def Component.le : Component → Component → Bool
  | .name a, .name b => decide (a ≤ b)
  | .name _, _ => false
  | .up, .up | .up, .name _ => true
  | .up, _ => false
  | .here, .root => false
  | .here, _ => true
  | .root, _ => true

/-- The order of lists of steps, by the first step in which they differ. -/
def componentsLe : List Component → List Component → Bool
  | [], _ => true
  | _ :: _, [] => false
  | a :: as, b :: bs => if a = b then componentsLe as bs else a.le b

/-- The order of paths. -/
def le (p q : FilePath) : Bool :=
  componentsLe p.components q.components

end FilePath

end VectorIcon
