import VectorIcon.Path.Reader

/-!
# Reading path data with a cursor

`Cursor.read` reads the bytes of path data with a cursor that is moved from place to place. Nothing keeps the
cursor between characters, within the text or moving, so there is a stop for all that goes wrong when it is not:
a text that is cut out where no character begins, a text taken for a number that is none, an argument outside
of the slots for arguments, and a turn of a loop that does not move on.
-/

namespace VectorIcon.Path

open Text Number

/-- A place in path data, counted in bytes, with the places before it and the texts that were taken for numbers. -/
structure Cursor where
  pos : Nat := 0
  earlier : List Nat := []
  numerals : List String := []
  deriving Repr, DecidableEq

namespace Cursor

/-- All places that the cursor was at. -/
def visited (c : Cursor) : List Nat :=
  c.pos :: c.earlier

/-- Why a reading comes to a stop: an error that it reports, or a step that is not possible. -/
inductive Stop
  | reported (error : Error)
  | noText (start finish : Nat)
  | noNumber (text : String)
  | noSlot (index : Nat)
  | stuck (pos : Nat)
  deriving Repr, DecidableEq

/-- What a loop does after a turn. -/
inductive Turn (σ α : Type)
  | again (state : σ)
  | done (result : α)

/-- Steps of a cursor. -/
abbrev Reading := EStateM Stop Cursor

variable {σ α : Type}

/-! ## Places -/

/-- The place of the cursor. -/
def place : Reading Nat :=
  return (← get).pos

/-- Move the cursor to a place. -/
def moveTo (pos : Nat) : Reading Unit :=
  modify fun c => { c with pos, earlier := c.visited }

/-- Move the cursor over some bytes. -/
def advance (count : Nat) : Reading Unit := do
  moveTo ((← place) + count)

/-- The byte some bytes ahead, as the character of its number. -/
def peekAt (data : String) (ahead : Nat) : Reading (Option Char) :=
  return data.toByteArray[(← place) + ahead]?.map Char.ofUInt8

/-- The next byte. -/
def peek (data : String) : Reading (Option Char) :=
  peekAt data 0

/-- Move over the next byte when it is ASCII. -/
def bump (data : String) : Reading (Option Char) := do
  match ← peek data with
  | none => return none
  | some c =>
    if c.val ≤ 127 then
      advance 1
      return some c
    else return none

/-! ## Loops -/

/-- The turns of a loop. One that goes on without a move further into the text is stuck. -/
def loop (data : String) (turn : σ → Reading (Turn σ α)) (state : σ) : Reading α := fun c =>
  match turn state c with
  | .error stop c' => .error stop c'
  | .ok (.done result) c' => .ok result c'
  | .ok (.again state') c' =>
    if c.pos < c'.pos ∧ c'.pos ≤ data.utf8ByteSize then loop data turn state' c'
    else .error (.stuck c.pos) c'
termination_by c => data.utf8ByteSize - c.pos

/-- Move over bytes of a kind. -/
def skipWhile (data : String) (p : Char → Bool) : Reading Unit :=
  loop data (fun _ => do
    if (← peek data).any p then
      advance 1
      return .again ()
    else return .done ()) ()

/-- Move over blanks and commas. -/
def skipGap (data : String) : Reading Unit :=
  skipWhile data isSeparator

/-- Move over digits, and how many they are. -/
def digits (data : String) : Reading Nat := do
  let start ← place
  skipWhile data isDigit
  return (← place) - start

/-! ## Texts -/

/-- The text between two places, when these are places of characters. -/
def textBetween? (data : String) (start finish : Nat) : Option String :=
  if h : String.Pos.Raw.IsValid data ⟨start⟩ ∧ String.Pos.Raw.IsValid data ⟨finish⟩ ∧ start ≤ finish then
    some (String.extract (data.pos ⟨start⟩ h.1) (data.pos ⟨finish⟩ h.2.1))
  else none

/-- The text between two places. -/
def textBetween (data : String) (start finish : Nat) : Reading String :=
  match textBetween? data start finish with
  | some text => return text
  | none => throw (.noText start finish)

/-- What stands at a place, for errors. -/
def excerptAt (data : String) (pos : Nat) : String :=
  excerpt ((textBetween? data pos data.utf8ByteSize).getD "").toList

/-- Report a fault at a place. -/
def report (data : String) (fault : Fault) (pos : Nat) : Reading α :=
  throw (.reported (.malformed fault (excerptAt data pos)))

/-! ## Numbers and flags -/

/-- The number that a whole text stands for, in all forms that numbers have. -/
def floatOf? (text : String) : Option Float :=
  match scan? text.toList with
  | some (n, []) => some n.toFloat
  | _ =>
    let (negative, word) := scanSign text.toList
    let word := String.ofList (word.map Char.toLower)
    if word = "inf" ∨ word = "infinity" then some (if negative then -1.0 / 0.0 else 1.0 / 0.0)
    else if word = "nan" then some (0.0 / 0.0)
    else none

/-- The number of a text that was cut out. -/
def numberOf (text : String) : Reading Float := do
  modify fun c => { c with numerals := text :: c.numerals }
  match floatOf? text with
  | some v => return v
  | none => throw (.noNumber text)

/-- A sign. -/
def isSign (c : Char) : Bool :=
  c == '+' || c == '-'

/-- The mark of a power of ten. -/
def isMark (c : Char) : Bool :=
  c == 'e' || c == 'E'

/-- What a number without a sign begins with. -/
def isFirst (c : Char) : Bool :=
  isDigit c || c == '.'

/-- Move over a sign. -/
def sign (data : String) : Reading Unit := do
  if (← peek data).any isSign then advance 1

/-- Move over a point with digits after it, and how many these are. -/
def fraction (data : String) : Reading Nat := do
  if (← peek data).any (· == '.') then
    advance 1
    digits data
  else return 0

/-- Move over the mark of a power of ten, its sign and its digits, when there are digits. -/
def exponent (data : String) : Reading Unit := do
  if (← peek data).any isMark then
    let ahead := if (← peekAt data 1).any isSign then 2 else 1
    if (← peekAt data ahead).any isDigit then
      advance ahead
      let _ ← digits data

/-- The next number. -/
def number (data : String) : Reading Float := do
  skipGap data
  let start ← place
  sign data
  let whole ← digits data
  let fraction ← fraction data
  if whole + fraction = 0 then
    moveTo start
    report data .expectedNumber (← place)
  else
    exponent data
    let text ← textBetween data start (← place)
    let v ← numberOf text
    if isFinite v then return v
    else report data (.outOfRange text) start

/-- The next flag. -/
def flag (data : String) : Reading Bool := do
  skipGap data
  let next ← peek data
  if next.any (· == '0') then
    advance 1
    return false
  else if next.any (· == '1') then
    advance 1
    return true
  else report data .expectedFlag (← place)

/-- A number starts at the cursor. -/
def atNumber (data : String) : Reading Bool := do
  let next ← peek data
  if next.any isFirst then return true
  else if next.any isSign then return (← peekAt data 1).any isFirst
  else return false

/-! ## Groups of arguments -/

/-- The number of slots for arguments. -/
def capacity : Nat := 7

/-- An argument of an arc that is a flag. -/
def isFlagAt (letter : Char) (index : Nat) : Bool :=
  (letter == 'A' || letter == 'a') && (index == 3 || index == 4)

/-- The argument of a letter for a slot. -/
def argument (data : String) (letter : Char) (index : Nat) : Reading Float :=
  if isFlagAt letter index then return if ← flag data then 1.0 else 0.0
  else number data

/-- The value of a slot. -/
def slot (slots : List Float) (index : Nat) : Reading Float :=
  match slots[index]? with
  | some v => return v
  | none => throw (.noSlot index)

/-- Put a value into a slot. -/
def store (slots : List Float) (index : Nat) (v : Float) : Reading (List Float) :=
  if index < slots.length then return slots.set index v else throw (.noSlot index)

/-- The first slots. -/
def firstSlots (slots : List Float) (count : Nat) : Reading (List Float) :=
  if count ≤ slots.length then return slots.take count else throw (.noSlot count)

/-- The slots with the arguments of a letter in the first ones. -/
def arguments (data : String) (letter : Char) (count : Nat) : Reading (List Float) :=
  loop data (fun (indices, slots) =>
    match indices with
    | [] => return .done slots
    | index :: indices => do
      let v ← argument data letter index
      return .again (indices, ← store slots index v))
    ((List.range capacity).take count, List.replicate capacity 0.0)

/-- The command of a letter with its values. -/
def command? (letter : Char) (values : List Float) : Reading (Option (Command Float)) := do
  match Letter.ofChar? letter with
  | none => return none
  | some shape =>
    if shape.slots.length = values.length then
      let arguments ← shape.slots.zipIdx.mapM fun (kind, index) =>
        return Command.argument kind (← slot values index)
      return Command.ofArguments? shape arguments
    else return none

/-- The command of a letter with the arguments at the cursor. -/
def group (data : String) (letter : Char) : Reading (Command Float) := do
  let count := (arity? letter).getD 0
  let slots ← arguments data letter count
  match ← command? letter (← firstSlots slots count) with
  | some command => return command
  | none => throw (.reported (.unknownCommand letter (← place)))

/-! ## Commands -/

/-- The letter that further arguments repeat. -/
def repeated (letter : Char) : Char :=
  if letter = 'M' then 'L' else if letter = 'm' then 'l' else letter

/-- The commands so far and the letter that further arguments repeat. -/
abbrev Progress :=
  List (Command Float) × Option Char

/-- The command of a letter at the cursor. -/
def explicit (data : String) (commands : List (Command Float)) (letter : Char) :
    Reading (Turn Progress (List (Command Float))) := do
  let start ← place
  if (arity? letter).isNone then throw (.reported (.unknownCommand letter start))
  else
    let _ ← bump data
    if letter == 'Z' || letter == 'z' then return .again (commands ++ [.close], none)
    else
      let command ← group data letter
      return .again (commands ++ [command], some (repeated letter))

/-- The command of a number at the cursor. -/
def implicit (data : String) (commands : List (Command Float)) (again : Option Char) :
    Reading (Turn Progress (List (Command Float))) := do
  if ← atNumber data then
    match again with
    | none => report data .missingCommand (← place)
    | some letter =>
      let command ← group data letter
      return .again (commands ++ [command], some letter)
  else report data .unexpectedCharacter (← place)

/-- One more command. -/
def turn (data : String) : Progress → Reading (Turn Progress (List (Command Float)))
  | (commands, again) => do
    skipGap data
    match ← peek data with
    | none => return .done commands
    | some c => if isLetter c then explicit data commands c else implicit data commands again

/-- The commands of path data. -/
def read (data : String) : Reading (List (Command Float)) :=
  loop data (turn data) ([], none)

end Cursor

end VectorIcon.Path
