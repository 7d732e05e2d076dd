import VectorIcon.Text.Blank
import VectorIcon.Markup.Element

/-!
# Properties of elements

A property of an element is what its inline style declares last, or else the attribute of that name.
Nothing is inherited.
-/

namespace VectorIcon.Svg

open Text Markup

/-- A declaration of an inline style: the property in lower case and its value. -/
def declaration? (s : List Char) : Option (String × String) := do
  let (key, value) ← cut? ':' s
  let key := trim key
  if key.isEmpty then none
  else some (String.ofList (lower key), String.ofList (trim value))

/-- The declarations of an inline style in order. -/
def declarations (style : String) : List (String × String) :=
  (style.toList.splitOnP (· == ';')).filterMap declaration?

/-- A text without the blanks around it. -/
def trimmed (value : String) : String :=
  String.ofList (trim value.toList)

/-- The value that an inline style declares last for a property. -/
def declared? (e : Element) (property : String) : Option String :=
  (e.attribute? "style").bind fun style => (declarations style).reverse.lookup property

/-- The value of a property. -/
def property? (e : Element) (property : String) : Option String :=
  ((declared? e property).or (e.attribute? property)).map trimmed

/-- The identifier of an element, when it is not blank. -/
def id? (e : Element) : Option String :=
  ((e.attribute? "id").map trimmed).filter (!·.isEmpty)

/-- The element and all in it are not shown. -/
def isHidden (e : Element) : Bool :=
  property? e "display" == some "none"

end VectorIcon.Svg
