import VectorIcon.Markup.Element
import VectorIcon.Markup.Doctype

/-!
# Reading documents

`parse` reads the text of a document into its root element. Entities of the document type are replaced
in text, where they may bring elements with them, and in attributes. Entities that refer to each other
are followed ten levels deep, and below the first level at most 255 references are followed for one
reference in the document; the number followed so far is the state of the reading.

The reader of nested elements takes one unit of fuel for every step. A text of `n` characters has at
most `n` steps on every level of entities, and `parse` gives enough for all levels.
-/

namespace VectorIcon.Markup

open Text

/-- A reading that counts the references followed below the first level. -/
abbrev Reading := StateT Nat (Except Error)

/-- What names are resolved with: entities, and qualifiers with their namespaces, the inner ones
first. -/
structure Scope where
  entities : Entities
  spaces : List (String × String)

/-- The namespace of the qualifier `xml`. -/
def markupSpace : String := "http://www.w3.org/XML/1998/namespace"

/-- The namespace of the qualifier `xmlns`. -/
def declarationSpace : String := "http://www.w3.org/2000/xmlns/"

/-- The number of levels that entities are followed. -/
def entityLevels : Nat := 10

/-- The replacement text of an entity, at a level below the document. -/
def follow {α : Type} (entities : Entities) (level : Nat) (name : String)
    (read : List Char → Reading α) : Reading α := do
  match entities.lookup name with
  | none => throw (.unknownEntity name)
  | some value =>
    let count ← get
    if 0 < level ∧ count = 255 then throw .entityLoop
    if level = entityLevels then throw .entityLoop
    if 0 < level then set (count + 1)
    let result ← read value
    if level = 0 then set 0
    return result

/-- A piece of a written attribute value. -/
inductive Piece
  | plain (c : Char)
  | reference (r : Reference)

/-- The pieces of a written value; a line break of two characters is one. Each piece takes one unit of
fuel. -/
def pieces : Nat → List Char → Except Error (List Piece)
  | 0, _ => .ok []
  | _ + 1, [] => .ok []
  | fuel + 1, '&' :: rest => do
    let (r, rest) ← scanReference rest
    return .reference r :: (← pieces fuel rest)
  | fuel + 1, '\r' :: '\n' :: rest => do
    return .plain ' ' :: (← pieces fuel rest)
  | fuel + 1, c :: rest => do
    return .plain (if isSpace c then ' ' else c) :: (← pieces fuel rest)

/-- The value of an attribute: blanks are spaces, and references are replaced. A character reference
keeps its character, unless it comes from an entity. -/
def attributeValue (entities : Entities) : Nat → Nat → List Char → Reading (List Char)
  | 0, _, _ => throw .entityLoop
  | fuel + 1, level, s => do
    let parts ← (← pieces (s.length + 1) s).mapM fun
      | .plain c => do
        if c = '<' then throw .markInAttribute
        return [c]
      | .reference (.character c) => do
        if level = 0 then return [c]
        if c = '<' then throw .markInAttribute
        return [if isSpace c then ' ' else c]
      | .reference (.entity name) => follow entities level name (attributeValue entities fuel (level + 1))
    return parts.flatten

/-- An attribute as written. -/
structure WrittenAttribute where
  name : QualifiedName
  value : List Char

/-- The value of an attribute between its quotes. -/
def scanAttributeValue (s : List Char) : Except Error (List Char × List Char) := do
  let (value, rest) ← scanQuoted s
  if value.contains '<' then throw .markInAttribute
  return (value, rest)

/-- The attributes of a start tag, whether the element stays open, and the text after the tag; each
attribute takes one unit of fuel. -/
def scanAttributes : Nat → List Char → Except Error (List WrittenAttribute × Bool × List Char)
  | 0, _ => .error .unclosed
  | fuel + 1, s =>
    match skipSpaces s with
    | '/' :: rest => (expect ">" rest).map fun rest => ([], false, rest)
    | '>' :: rest => .ok ([], true, rest)
    | [] => .error .unclosed
    | _ => do
      let (name, rest) ← scanQualifiedName (← someSpaces s)
      let rest ← expect "=" (skipSpaces rest)
      let (value, rest) ← scanAttributeValue (skipSpaces rest)
      let (others, isOpen, rest) ← scanAttributes fuel rest
      return (⟨name, value⟩ :: others, isOpen, rest)

/-- The namespace of a qualifier. -/
def Scope.space (scope : Scope) (qualifier : String) : Except Error (Option String) :=
  if qualifier = "" then .ok none
  else
    match scope.spaces.lookup qualifier with
    | some space => .ok (some space)
    | none => .error (.unknownQualifier qualifier)

/-- The namespaces that attributes declare for qualifiers. -/
def declaredSpaces : List (QualifiedName × String) → Except Error (List (String × String))
  | [] => .ok []
  | (name, value) :: rest => do
    let others ← declaredSpaces rest
    if name.qualifier = "xmlns" then
      if value = declarationSpace then throw .reservedNamespace
      if (name.name == "xml") != (value == markupSpace) then throw .reservedNamespace
      if (others.lookup name.name).isSome then throw (.duplicateAttribute name.name)
      return if value = markupSpace then others else (name.name, value) :: others
    else if name.name = "xmlns" then
      if value = declarationSpace ∨ value = markupSpace then throw .reservedNamespace
      return others
    else return others

/-- The attribute declares a namespace. -/
def isDeclaration (name : QualifiedName) : Bool :=
  name.qualifier == "xmlns" || name.name == "xmlns"

/-- The attributes that declare nothing, with their namespaces; no two may have one name. -/
def resolveAttributes (scope : Scope) : List (QualifiedName × String) → Except Error (List Attribute)
  | [] => .ok []
  | (name, value) :: rest => do
    let others ← resolveAttributes scope rest
    if isDeclaration name then return others
    let space ← if name.qualifier = "xml" then pure (some markupSpace) else scope.space name.qualifier
    if others.any fun a => a.space == space && a.name == name.name then
      throw (.duplicateAttribute name.name)
    return ⟨space, name.name, value⟩ :: others

/-- The entities that a text refers to, in order. -/
def textEntities (s : List Char) : Except Error (List String) := do
  if occurs "]]>".toList s then throw .malformedText
  if s.any fun c => !isDocumentChar c then throw .foreignCharacter
  return (← pieces (s.length + 1) s).filterMap fun
    | .reference (.entity name) => some name
    | _ => none

mutual

/-- The elements of some content up to the next end tag or the end, and the text from there on. -/
def readContent (scope : Scope) (level : Nat) : Nat → List Char → Reading (List Element × List Char)
  | 0, _ => throw .unclosed
  | fuel + 1, s =>
    match s with
    | [] => return ([], [])
    | '<' :: '/' :: _ => return ([], s)
    | '<' :: '!' :: '-' :: '-' :: rest => do readContent scope level fuel (← skipComment rest)
    | '<' :: '?' :: rest => do readContent scope level fuel (← skipInstruction rest)
    | '<' :: '!' :: rest => do
      let rest ← expect "[CDATA[" rest
      let (_, rest) ← upTo "]]>".toList rest
      readContent scope level fuel rest
    | '<' :: rest => do
      let (element, rest) ← readElement scope level fuel rest
      let (others, rest) ← readContent scope level fuel rest
      return (element :: others, rest)
    | _ => do
      let elements ← readEntities scope level fuel (← textEntities (s.takeWhile (· != '<')))
      let (others, rest) ← readContent scope level fuel (s.dropWhile (· != '<'))
      return (elements ++ others, rest)

/-- The elements that the entities of a text bring. -/
def readEntities (scope : Scope) (level : Nat) : Nat → List String → Reading (List Element)
  | 0, _ => throw .unclosed
  | _ + 1, [] => return []
  | fuel + 1, name :: names => do
    let elements ← follow scope.entities level name fun value => do
      let (elements, rest) ← readContent scope (level + 1) fuel value
      if rest.isEmpty then return elements else throw (.mismatchedEnd name)
    return elements ++ (← readEntities scope level fuel names)

/-- The element whose start tag has just been opened, and the text after it. -/
def readElement (scope : Scope) (level : Nat) : Nat → List Char → Reading (Element × List Char)
  | 0, _ => throw .unclosed
  | fuel + 1, s => do
    let (name, rest) ← scanQualifiedName s
    let (written, isOpen, rest) ← scanAttributes (rest.length + 1) rest
    let values ← written.mapM fun a => do
      return (a.name, String.ofList (← attributeValue scope.entities (entityLevels + 1) level a.value))
    let scope := { scope with spaces := (← declaredSpaces values) ++ scope.spaces }
    let attributes ← resolveAttributes scope values
    if name.qualifier = "xmlns" then throw .malformedName
    let _ ← scope.space name.qualifier
    if isOpen then
      let (children, rest) ← readContent scope level fuel rest
      let (ending, rest) ← scanQualifiedName (← expect "</" rest)
      let rest ← expect ">" (skipSpaces rest)
      if ending ≠ name then throw (.mismatchedEnd name.name)
      return (⟨name.name, attributes, children⟩, rest)
    else return (⟨name.name, attributes, []⟩, rest)

end

/-- The text after the declaration of a document: a version, and perhaps an encoding and a last word on
external parts. -/
def skipDeclaration (s : List Char) : Except Error (List Char) := do
  let skipSpacesOrEnd (s : List Char) : Except Error (List Char) :=
    if "?>".toList.isPrefixOf s ∨ s.isEmpty then .ok s else someSpaces s
  let skipAttribute (s : List Char) : Except Error (List Char) := do
    let (_, rest) ← scanQualifiedName s
    let rest ← expect "=" (skipSpaces rest)
    let (_, rest) ← scanAttributeValue (skipSpaces rest)
    return rest
  let _ ← expect "version" (skipSpaces s)
  let rest ← skipSpacesOrEnd (← skipAttribute (skipSpaces s))
  let rest ← if "encoding".toList.isPrefixOf rest then do skipSpacesOrEnd (← skipAttribute rest)
    else pure rest
  let rest ← if "standalone".toList.isPrefixOf rest then skipAttribute rest else pure rest
  expect "?>" (skipSpaces rest)

/-- The text from its document type or its root element on, and whether nothing but blanks, comments
and instructions was before it. -/
def skipProlog (s : List Char) : Except Error (List Char) := do
  let s := match s with
    | '\uFEFF' :: rest => rest
    | _ => s
  let rest ← match after? "<?xml ".toList s with
    | some rest => skipDeclaration rest
    | none => pure s
  skipMiscellany (rest.length + 1) rest

/-- The root element of a document. -/
def parse (text : String) : Except Error Element := do
  let rest ← skipProlog text.toList
  let (entities, rest) ← match after? "<!DOCTYPE".toList rest with
    | some rest => do
      let (entities, rest) ← scanDoctype rest
      let rest ← skipMiscellany (rest.length + 1) rest
      pure (entities, rest)
    | none => pure ([], rest)
  match rest with
  | '<' :: rest =>
    let fuel := 2 * (entityLevels + 1) * (text.length + 2)
    let ((root, rest), _) ← (readElement ⟨entities, []⟩ 0 fuel rest).run 0
    let rest ← skipMiscellany (rest.length + 1) rest
    if rest.isEmpty then return root else throw (.expected "the end of the document")
  | _ => throw .noRoot

end VectorIcon.Markup
