/-!
# Data values

The values of the data format that settings are kept in and icons are described in. The entries of a
record keep their order, and a key may stand twice.
-/

namespace VectorIcon

/-- A data value. -/
inductive Json
  | null
  | boolean (value : Bool)
  | integer (value : Int)
  | real (value : Float)
  | text (value : String)
  /-- A string with an escape for half of a surrogate pair: well formed, but no text. -/
  | noText
  | list (items : List Json)
  | record (entries : List (String × Json))
  deriving Repr

namespace Json

/-- The last entry of a record under a key. -/
def field? (key : String) : Json → Option Json
  | .record entries => entries.reverse.lookup key
  | _ => none

end Json

end VectorIcon
