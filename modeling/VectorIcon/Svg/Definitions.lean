import VectorIcon.Icon.Paint
import VectorIcon.Path.Command

/-!
# Definitions of a document

Gradients and clip paths are found by their identifiers; of two with the same one the later holds.
-/

namespace VectorIcon.Svg

/-- What references of a document point at, the latest first. -/
structure Definitions where
  gradients : List (String × Icon.Paint) := []
  clips : List (String × List (Path.Command Float)) := []

namespace Definitions

/-- The definitions with one more gradient. -/
def addGradient (d : Definitions) (id : String) (paint : Icon.Paint) : Definitions :=
  { d with gradients := (id, paint) :: d.gradients }

/-- The definitions with one more clip path. -/
def addClip (d : Definitions) (id : String) (commands : List (Path.Command Float)) : Definitions :=
  { d with clips := (id, commands) :: d.clips }

/-- The gradient of an identifier. -/
def gradient? (d : Definitions) (id : String) : Option Icon.Paint :=
  d.gradients.lookup id

/-- The commands of the clip path of an identifier. -/
def clip? (d : Definitions) (id : String) : Option (List (Path.Command Float)) :=
  d.clips.lookup id

end Definitions

end VectorIcon.Svg
