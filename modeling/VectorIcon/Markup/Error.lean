/-!
# Faults in documents
-/

namespace VectorIcon.Markup

/-- Why a text is no document. -/
inductive Error
  | expected (what : String)
  | foreignCharacter
  | malformedName
  | malformedComment
  | malformedText
  | malformedReference
  | unknownEntity (name : String)
  | entityLoop
  | markInAttribute
  | misplacedDeclaration
  | unknownQualifier (qualifier : String)
  | reservedNamespace
  | duplicateAttribute (name : String)
  | mismatchedEnd (name : String)
  | noRoot
  | unclosed
  deriving Repr, DecidableEq

/-- The words for a fault. -/
def Error.message : Error → String
  | .expected what => "expected " ++ what
  | .foreignCharacter => "a character that no document may hold"
  | .malformedName => "a malformed name"
  | .malformedComment => "two hyphens in a comment"
  | .malformedText => "the end of a literal section in text"
  | .malformedReference => "a malformed reference"
  | .unknownEntity name => "no entity is called '" ++ name ++ "'"
  | .entityLoop => "entities refer to each other too deeply"
  | .markInAttribute => "an opening mark in an attribute"
  | .misplacedDeclaration => "a declaration that is not at the start"
  | .unknownQualifier qualifier => "no namespace is called '" ++ qualifier ++ "'"
  | .reservedNamespace => "a reserved namespace"
  | .duplicateAttribute name => "the attribute '" ++ name ++ "' stands twice"
  | .mismatchedEnd name => "the end of '" ++ name ++ "' is missing"
  | .noRoot => "the document has no element"
  | .unclosed => "the document ends inside of an element"

end VectorIcon.Markup
