import VectorIcon.Number.Layout
import VectorIcon.Json.Basic

/-!
# Printing data values

The layout for readers: every item and every entry on a line of its own, two blanks deeper than what
holds it. An empty list or record stays on its line.
-/

namespace VectorIcon.Json

/-- The hexadecimal digit of a number below sixteen, in lower case. -/
def lowerHexDigit (n : Nat) : Char :=
  Nat.digitChar n

/-- One character of a string, escaped where the format asks for it. -/
def encodeChar (c : Char) : List Char :=
  if c = '"' then ['\\', '"']
  else if c = '\\' then ['\\', '\\']
  else if c = '\x08' then ['\\', 'b']
  else if c = '\x0c' then ['\\', 'f']
  else if c = '\n' then ['\\', 'n']
  else if c = '\r' then ['\\', 'r']
  else if c = '\t' then ['\\', 't']
  else if c.toNat < 0x20 then
    ['\\', 'u', '0', '0', lowerHexDigit (c.toNat / 16), lowerHexDigit (c.toNat % 16)]
  else [c]

/-- A string in quotes. -/
def encodeText (value : String) : String :=
  String.ofList ('"' :: value.toList.flatMap encodeChar ++ ['"'])

/-- The text of a number; the format has no infinities. -/
def encodeReal (value : Float) : String :=
  match Number.Binary.ofFloat? value with
  | some b => Number.Layout.data.finite b
  | none => "null"

/-- The indentation at a depth. -/
def indentation (depth : Nat) : String :=
  String.ofList (List.replicate (2 * depth) ' ')

mutual

/-- The text of a value that stands at a depth. -/
def prettyAt (depth : Nat) : Json → String
  | .null => "null"
  | .boolean value => if value then "true" else "false"
  | .integer value => toString value
  | .real value => encodeReal value
  | .text value => encodeText value
  | .noText => encodeText ""
  | .list [] => "[]"
  | .list (item :: items) =>
    "[\n" ++ indentation (depth + 1) ++ prettyAt (depth + 1) item ++ prettyItems (depth + 1) items
      ++ "\n" ++ indentation depth ++ "]"
  | .record [] => "\x7b\x7d"
  | .record ((key, value) :: entries) =>
    "\x7b\n" ++ indentation (depth + 1) ++ encodeText key ++ ": " ++ prettyAt (depth + 1) value
      ++ prettyEntries (depth + 1) entries ++ "\n" ++ indentation depth ++ "\x7d"

/-- The items after the first, each with the comma before it. -/
def prettyItems (depth : Nat) : List Json → String
  | [] => ""
  | item :: items =>
    ",\n" ++ indentation depth ++ prettyAt depth item ++ prettyItems depth items

/-- The entries after the first, each with the comma before it. -/
def prettyEntries (depth : Nat) : List (String × Json) → String
  | [] => ""
  | (key, value) :: entries =>
    ",\n" ++ indentation depth ++ encodeText key ++ ": " ++ prettyAt depth value
      ++ prettyEntries depth entries

end

/-- The text of a value on several lines. -/
def pretty (value : Json) : String :=
  prettyAt 0 value

end VectorIcon.Json
