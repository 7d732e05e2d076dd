/-!
# Warnings

What a document asks for and an icon cannot have. A `Log` keeps each warning once, at the place of its
first report.
-/

namespace VectorIcon

/-- A family of elements that no path can express. -/
inductive Category
  | text
  | advanced
  | filter
  | animation
  | embedded
  deriving Repr, DecidableEq

/-- A part of a filter: `fe` and a capital letter. -/
def isFilterPart (tag : List Char) : Bool :=
  match tag with
  | 'f' :: 'e' :: c :: _ => 'A' ≤ c && c ≤ 'Z'
  | _ => false

/-- The family of a tag, if it cannot be drawn. -/
def Category.ofTag? (tag : String) : Option Category :=
  if ["text", "tspan", "textPath", "tref"].contains tag then some .text
  else if ["marker", "symbol", "use", "switch", "pattern", "mask", "view", "cursor"].contains tag then
    some .advanced
  else if tag = "filter" then some .filter
  else if ["set", "mpath", "discard"].contains tag then some .animation
  else if ["image", "foreignObject", "video", "audio", "iframe", "canvas"].contains tag then
    some .embedded
  else if "animate".toList.isPrefixOf tag.toList then some .animation
  else if isFilterPart tag.toList then some .filter
  else none

/-- The words for a family. -/
def Category.label : Category → String
  | .text => "Text element"
  | .advanced => "Advanced SVG element"
  | .filter => "Filter element"
  | .animation => "Animation element"
  | .embedded => "Embedded content element"

/-- What a reference points at. -/
inductive Target
  | gradient
  | clipPath
  deriving Repr, DecidableEq

/-- A fault that does not stop the conversion. -/
inductive Warning
  | unsupportedElement (category : Category) (tag : String)
  | invalidGeometry (element : String)
  | unknownReference (target : Target) (id : String)
  | skippedTransform (function : String)
  | invalidColor (value reason : String)
  | droppedPath (message : String)
  deriving Repr, DecidableEq

/-- The message of a warning. -/
def Warning.message : Warning → String
  | .unsupportedElement category tag => category.label ++ " '<" ++ tag ++ ">' is not supported"
  | .invalidGeometry element => "Invalid geometry on '<" ++ element ++ ">', element dropped"
  | .unknownReference .gradient id =>
    "Gradient '#" ++ id ++ "' is not defined, using opaque black"
  | .unknownReference .clipPath id => "Clip path '#" ++ id ++ "' is not defined, clip ignored"
  | .skippedTransform function => "Transform function '" ++ function ++ "' ignored"
  | .invalidColor value reason =>
    "Invalid color '" ++ value ++ "' treated as no paint: " ++ reason
  | .droppedPath message => "Path dropped: " ++ message

/-- Warnings in the order of their first reports. -/
abbrev Warning.Log := List Warning

/-- The log with one more report. -/
def Warning.Log.report (log : Warning.Log) (w : Warning) : Warning.Log :=
  if log.contains w then log else log ++ [w]

/-- The log of a list of reports. -/
def Warning.Log.ofReports (reports : List Warning) : Warning.Log :=
  reports.foldl Warning.Log.report []

end VectorIcon
