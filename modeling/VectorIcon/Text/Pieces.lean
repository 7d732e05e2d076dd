import VectorIcon.Text.Blank

/-!
# Cutting, replacing and ordering

`splitAt` cuts a text at every occurrence of another one, from left to right and without overlap, and
`replaceAll` puts something in the place of each. An empty text occurs before and after every character.
`sortedSet` puts whole texts in order.
-/

namespace VectorIcon.Text

/-- A character in front of the first of some pieces. -/
def consPiece (c : Char) : List (List Char) → List (List Char)
  | [] => [[c]]
  | piece :: pieces => (c :: piece) :: pieces

/-- The pieces of a text between the occurrences of a mark, after some characters that belong to one. -/
def splitFrom (mark : List Char) : Nat → List Char → List (List Char)
  | _, [] => [[]]
  | skip + 1, _ :: rest => splitFrom mark skip rest
  | 0, c :: rest =>
    if mark.isPrefixOf (c :: rest) then [] :: splitFrom mark (mark.length - 1) rest
    else consPiece c (splitFrom mark 0 rest)

/-- The pieces of a text between the occurrences of a mark. -/
def splitAt (mark s : List Char) : List (List Char) :=
  if mark.isEmpty then [] :: s.map (fun c => [c]) ++ [[]] else splitFrom mark 0 s

/-- The text with something in the place of every occurrence of a mark. -/
def replaceAll (mark new s : List Char) : List Char :=
  new.intercalate (splitAt mark s)

/-- The lines of a text. The last one needs no line feed, and a carriage return before a line feed belongs
to it. -/
def lines (s : List Char) : List (List Char) :=
  let pieces := s.splitOn '\n'
  let ended := pieces.dropLast.map fun line => if line.getLast? = some '\r' then line.dropLast else line
  match pieces.getLast? with
  | some [] | none => ended
  | some last => ended ++ [last]

example : splitAt ", ".toList "a, b,c".toList = ["a".toList, "b,c".toList] := by decide +kernel

example : replaceAll "aa".toList "b".toList "aaa".toList = "ba".toList := by decide +kernel

example : lines "a\r\n\nb".toList = ["a".toList, [], "b".toList] := by decide +kernel

/-- Texts in order, each of them once. -/
def sortedSet (texts : List String) : List String :=
  (texts.mergeSort fun a b => decide (a ≤ b)).eraseDups

end VectorIcon.Text
