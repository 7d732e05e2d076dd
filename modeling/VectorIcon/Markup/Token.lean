import VectorIcon.Text.Blank
import VectorIcon.Markup.Character
import VectorIcon.Markup.Error

/-!
# The smallest parts of documents

Names, quoted values, references, comments and instructions. Each reader gives what it read and the text
after it.
-/

namespace VectorIcon.Markup

open Text

/-- A name with an optional qualifier before a colon. -/
structure QualifiedName where
  qualifier : String
  name : String
  deriving Repr, DecidableEq

/-- What a reference stands for. -/
inductive Reference
  | character (c : Char)
  | entity (name : String)
  deriving Repr, DecidableEq

/-- The text after its blanks. -/
def skipSpaces (s : List Char) : List Char :=
  s.dropWhile isSpace

/-- The text after at least one blank. -/
def someSpaces (s : List Char) : Except Error (List Char) :=
  match s with
  | c :: _ => if isSpace c then .ok (skipSpaces s) else .error (.expected "a blank")
  | [] => .error (.expected "a blank")

/-- The text after a given beginning. -/
def expect (start : String) (s : List Char) : Except Error (List Char) :=
  match after? start.toList s with
  | some rest => .ok rest
  | none => .error (.expected start)

/-- The characters of a text up to `stop`, with `read` already read in reverse. -/
def upToFrom (stop read : List Char) : List Char → Except Error (List Char × List Char)
  | [] => .error (.expected (String.ofList stop))
  | c :: rest =>
    match after? stop (c :: rest) with
    | some rest => .ok (read.reverse, rest)
    | none => if isDocumentChar c then upToFrom stop (c :: read) rest else .error .foreignCharacter

/-- The text up to the first place where it goes on with `stop`, and the text after that. -/
def upTo (stop s : List Char) : Except Error (List Char × List Char) :=
  upToFrom stop [] s

/-- A name. -/
def scanName (s : List Char) : Except Error (String × List Char) :=
  match s with
  | c :: _ =>
    if isNameStart c then .ok (String.ofList (s.takeWhile isNameChar), s.dropWhile isNameChar)
    else .error .malformedName
  | [] => .error .malformedName

/-- A text that may stand on one side of the colon. -/
def isPlainName (s : List Char) : Bool :=
  match s with
  | c :: _ => isNameStart c
  | [] => false

/-- A name with an optional qualifier. -/
def scanQualifiedName (s : List Char) : Except Error (QualifiedName × List Char) :=
  let whole := s.takeWhile isNameChar
  let rest := s.dropWhile isNameChar
  match cut? ':' whole with
  | none => if isPlainName whole then .ok (⟨"", String.ofList whole⟩, rest) else .error .malformedName
  | some (qualifier, name) =>
    if isPlainName name ∧ ¬ name.contains ':' ∧ (qualifier.isEmpty ∨ isPlainName qualifier) then
      .ok (⟨String.ofList qualifier, String.ofList name⟩, rest)
    else .error .malformedName

/-- A value between two quotes of one kind. -/
def scanQuoted (s : List Char) : Except Error (List Char × List Char) :=
  match s with
  | '"' :: rest => upTo ['"'] rest
  | '\x27' :: rest => upTo ['\x27'] rest
  | _ => .error (.expected "a quote")

/-- The characters that need no declaration. -/
def predefined? : String → Option Char
  | "quot" => some '"'
  | "amp" => some '&'
  | "apos" => some '\x27'
  | "lt" => some '<'
  | "gt" => some '>'
  | _ => none

/-- The character with a number; the replacement character where there is none. -/
def numberedChar? (n : Nat) : Option Char :=
  if UInt32.size ≤ n then none
  else
    let c := if h : n.isValidChar then Char.ofNatAux n h else '\uFFFD'
    if isDocumentChar c then some c else none

/-- The number of a character reference. -/
def characterNumber? (digits : List Char) (hexadecimal : Bool) : Option Nat :=
  if digits.isEmpty then none
  else if hexadecimal then hexNumber? digits
  else some (decimalNumber digits)

/-- A reference after its ampersand. -/
def scanReference (s : List Char) : Except Error (Reference × List Char) :=
  let closed (r : Option Reference) (rest : List Char) : Except Error (Reference × List Char) :=
    match r, rest with
    | some r, ';' :: rest => .ok (r, rest)
    | _, _ => .error .malformedReference
  match s with
  | '#' :: 'x' :: rest =>
    let isHex := fun c => (hexValue? c).isSome
    closed (((characterNumber? (rest.takeWhile isHex) true).bind numberedChar?).map .character)
      (rest.dropWhile isHex)
  | '#' :: rest =>
    closed (((characterNumber? (rest.takeWhile isDigit) false).bind numberedChar?).map .character)
      (rest.dropWhile isDigit)
  | _ =>
    match scanName s with
    | .error _ => .error .malformedReference
    | .ok (name, rest) =>
      match predefined? name with
      | some c => closed (some (.character c)) rest
      | none => closed (some (.entity name)) rest

/-- The text after a comment, from after its opening. -/
def skipComment (s : List Char) : Except Error (List Char) := do
  let (text, rest) ← upTo "-->".toList s
  if occurs ['-', '-'] text ∨ ['-'].isSuffixOf text then throw .malformedComment
  return rest

/-- The text after an instruction, from after its opening. -/
def skipInstruction (s : List Char) : Except Error (List Char) := do
  if "xml ".toList.isPrefixOf s then throw .misplacedDeclaration
  let (_, rest) ← scanName s
  let (_, rest) ← upTo "?>".toList (skipSpaces rest)
  return rest

/-- The text after all comments, instructions and blanks at its start; each takes one unit of fuel. -/
def skipMiscellany : Nat → List Char → Except Error (List Char)
  | 0, s => .ok s
  | fuel + 1, s =>
    match skipSpaces s with
    | '<' :: '!' :: '-' :: '-' :: rest => (skipComment rest).bind (skipMiscellany fuel)
    | '<' :: '?' :: rest => (skipInstruction rest).bind (skipMiscellany fuel)
    | rest => .ok rest

end VectorIcon.Markup
