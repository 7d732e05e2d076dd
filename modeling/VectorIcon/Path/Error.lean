/-!
# Faults in path data
-/

namespace VectorIcon.Path

/-- What stood in the text in place of the next token. -/
inductive Fault
  | expectedNumber
  | outOfRange (numeral : String)
  | expectedFlag
  | missingCommand
  | unexpectedCharacter
  deriving Repr, DecidableEq

/-- The words for a fault. -/
def Fault.message : Fault → String
  | .expectedNumber => "expected a number"
  | .outOfRange numeral => "number '" ++ numeral ++ "' is out of range"
  | .expectedFlag => "expected an arc flag (0 or 1)"
  | .missingCommand => "number without a preceding command"
  | .unexpectedCharacter => "unexpected character"

/-- Why a text is no path data: a fault with the text that follows it, or a letter that no command has
with the number of characters before it. -/
inductive Error
  | malformed (fault : Fault) (near : String)
  | unknownCommand (letter : Char) (offset : Nat)
  deriving Repr, DecidableEq

/-- The message of an error in path data. -/
def Error.message : Error → String
  | .malformed fault near =>
    "Malformed path data (" ++ fault.message ++ ") near \"" ++ near ++ "\""
  | .unknownCommand letter offset =>
    "Unknown path command '" ++ String.singleton letter ++ "' at offset " ++ toString offset

/-- The first sixteen characters of a text, or words for its end. -/
def excerpt (rest : List Char) : String :=
  if rest.isEmpty then "<end of input>" else String.ofList (rest.take 16)

end VectorIcon.Path
