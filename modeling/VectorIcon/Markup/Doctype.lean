import VectorIcon.Markup.Token

/-!
# Document types

Of a document type only the internal entities count: names with replacement texts, of which the first
declaration of a name holds. External parts are passed over.
-/

namespace VectorIcon.Markup

open Text

/-- Declared entities with their replacement texts, in order. -/
abbrev Entities := List (String × List Char)

/-- The text after a value in quotes that is passed over. -/
def skipLiteral (s : List Char) : Except Error (List Char) :=
  match s with
  | c :: rest =>
    if c = '"' ∨ c = '\x27' then
      match cut? c rest with
      | some (_, rest) => .ok rest
      | none => .error (.expected "a quote")
    else .error (.expected "a quote")
  | [] => .error (.expected "a quote")

/-- The text after the address of an external part, or none when there is none. -/
def skipAddress? (s : List Char) : Option (Except Error (List Char)) :=
  if "SYSTEM".toList.isPrefixOf s then
    some do skipLiteral (← someSpaces (s.drop 6))
  else if "PUBLIC".toList.isPrefixOf s then
    some do
      let rest ← skipLiteral (← someSpaces (s.drop 6))
      skipLiteral (← someSpaces rest)
  else none

/-- The replacement text of an entity, or none for an external one. -/
def scanDefinition (general : Bool) (s : List Char) :
    Except Error (Option (List Char) × List Char) :=
  match s with
  | c :: rest =>
    if c = '"' ∨ c = '\x27' then
      match cut? c rest with
      | some (value, rest) => .ok (some value, rest)
      | none => .error (.expected "a quote")
    else
      match skipAddress? s with
      | some address => do
        let rest ← address
        match after? "NDATA".toList (skipSpaces rest) with
        | some external =>
          if general then
            let (_, rest) ← scanName (← someSpaces external)
            return (none, rest)
          else return (none, rest)
        | none => return (none, if general then skipSpaces rest else rest)
      | none => .error (.expected "the value of an entity")
  | [] => .error (.expected "the value of an entity")

/-- An entity declaration, from after its opening: the entity, when it is internal. -/
def scanEntity (s : List Char) : Except Error (Entities × List Char) := do
  let rest ← someSpaces s
  let (general, rest) ← match rest with
    | '%' :: rest => (someSpaces rest).map fun rest => (false, rest)
    | _ => pure (true, rest)
  let (name, rest) ← scanName rest
  let (value, rest) ← scanDefinition general (← someSpaces rest)
  let rest ← expect ">" (skipSpaces rest)
  return (value.toList.map fun value => (name, value), rest)

/-- The declarations of an internal subset with its end; each takes one unit of fuel. -/
def scanDeclarations : Nat → List Char → Except Error (Entities × List Char)
  | 0, s => .ok ([], s)
  | fuel + 1, s =>
    match skipSpaces s with
    | [] => .ok ([], [])
    | ']' :: rest => (expect ">" (skipSpaces rest)).map fun rest => ([], rest)
    | '<' :: '!' :: '-' :: '-' :: rest => (skipComment rest).bind (scanDeclarations fuel)
    | '<' :: '?' :: rest => (skipInstruction rest).bind (scanDeclarations fuel)
    | rest =>
      match after? "<!ENTITY".toList rest with
      | some rest => do
        let (entities, rest) ← scanEntity rest
        let (others, rest) ← scanDeclarations fuel rest
        return (entities ++ others, rest)
      | none =>
        if ["<!ELEMENT", "<!ATTLIST", "<!NOTATION"].any fun start => start.toList.isPrefixOf rest then
          match cut? '>' rest with
          | some (_, rest) => scanDeclarations fuel rest
          | none => .error (.expected ">")
        else .error (.expected "a declaration")

/-- The entities of a document type, from after its opening. -/
def scanDoctype (s : List Char) : Except Error (Entities × List Char) := do
  let (_, rest) ← scanName (← someSpaces s)
  let rest := skipSpaces rest
  let rest ← (skipAddress? rest).getD (pure rest)
  match skipSpaces rest with
  | '>' :: rest => return ([], rest)
  | '[' :: rest => scanDeclarations (rest.length + 1) rest
  | _ => throw (.expected "the end of the document type")

end VectorIcon.Markup
