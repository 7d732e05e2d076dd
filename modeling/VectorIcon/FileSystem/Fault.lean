/-!
# Faults of files
-/

namespace VectorIcon

/-- Why a file cannot be read or written. -/
inductive FileFault
  | missing
  | isDirectory
  | notDirectory
  | alreadyThere
  | notText
  | other (message : String)
  deriving Repr, DecidableEq

/-- The message of a fault. -/
def FileFault.message : FileFault → String
  | .missing => "No such file or directory (os error 2)"
  | .isDirectory => "Is a directory (os error 21)"
  | .notDirectory => "Not a directory (os error 20)"
  | .alreadyThere => "File exists (os error 17)"
  | .notText => "stream did not contain valid UTF-8"
  | .other message => message

/-- The text of some bytes. -/
def textOfBytes (bytes : ByteArray) : Except FileFault String :=
  match String.fromUTF8? bytes with
  | some text => .ok text
  | none => .error .notText

end VectorIcon
