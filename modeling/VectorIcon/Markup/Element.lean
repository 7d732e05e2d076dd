/-!
# Element trees

A document is read into a tree of elements. Text between elements, comments and instructions play no
part in a drawing and are left out. An element is known by its local name; an attribute also by its
namespace.
-/

namespace VectorIcon.Markup

/-- An attribute with the namespace of its name, if it has one. -/
structure Attribute where
  space : Option String
  name : String
  value : String
  deriving Repr, DecidableEq

/-- An element with its attributes and the elements in it. -/
structure Element where
  name : String
  attributes : List Attribute
  children : List Element
  deriving Repr

namespace Element

/-- The value of the attribute with a name in no namespace. -/
def attribute? (e : Element) (name : String) : Option String :=
  (e.attributes.find? fun a => a.space.isNone && a.name == name).map Attribute.value

/-- The value of the attribute with a name in a namespace. -/
def attributeIn? (e : Element) (space name : String) : Option String :=
  (e.attributes.find? fun a => a.space == some space && a.name == name).map Attribute.value

mutual

/-- An element and all elements in it, in document order. -/
def descendants : Element → List Element
  | ⟨name, attributes, children⟩ => ⟨name, attributes, children⟩ :: descendantsOf children

/-- The elements of a list with all elements in them, in document order. -/
def descendantsOf : List Element → List Element
  | [] => []
  | e :: rest => e.descendants ++ descendantsOf rest

end

end Element

end VectorIcon.Markup
