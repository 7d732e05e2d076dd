import VectorIcon.Number.Numeral
import VectorIcon.Json.Basic

/-!
# Reading data values

A strict reader: nothing may follow the value but blanks, a number has no leading zeros, control
characters stand in a string only as escapes, and a string with half of a surrogate pair is no text.
Every step of the nested readers takes one unit of fuel, of which a text gets more than it has
characters.
-/

namespace VectorIcon.Json

open Text

/-- A blank between tokens. -/
def isGap (c : Char) : Bool :=
  c == ' ' || c == '\n' || c == '\t' || c == '\r'

/-- The text from its first token on. -/
def skipGaps (s : List Char) : List Char :=
  s.dropWhile isGap

/-- The number of four hexadecimal digits and the rest. -/
def scanUnit? : List Char → Option (Nat × List Char)
  | a :: b :: c :: d :: rest => (hexNumber? [a, b, c, d]).map (·, rest)
  | _ => none

/-- The character of a `\u` escape and the rest: one unit, or two surrogates. A surrogate that has no
partner stands for no character. -/
def scanUnicode? (s : List Char) : Option (Option Char × List Char) := do
  let (unit, rest) ← scanUnit? s
  if 0xD800 ≤ unit ∧ unit < 0xDC00 then
    match rest with
    | '\\' :: 'u' :: next =>
      let (low, afterLow) ← scanUnit? next
      if 0xDC00 ≤ low ∧ low < 0xE000 then
        some (some (Char.ofNat (0x10000 + (unit - 0xD800) * 0x400 + (low - 0xDC00))), afterLow)
      else some (none, rest)
    | _ => some (none, rest)
  else if 0xDC00 ≤ unit ∧ unit < 0xE000 then some (none, rest)
  else some (some (Char.ofNat unit), rest)

/-- The character that a letter after a backslash stands for. -/
def escaped? : Char → Option Char
  | '"' => some '"'
  | '\\' => some '\\'
  | '/' => some '/'
  | 'b' => some '\x08'
  | 'f' => some '\x0c'
  | 'n' => some '\n'
  | 'r' => some '\r'
  | 't' => some '\t'
  | _ => none

/-- A character in front of the characters of a string, if all of them are characters. -/
def consText (c : Option Char) (cs : Option (List Char)) : Option (List Char) :=
  c.bind fun c => cs.map (c :: ·)

/-- The characters of a string after its opening quote, and the rest after its closing one. -/
def scanString? : Nat → List Char → Option (Option (List Char) × List Char)
  | 0, _ => none
  | _ + 1, [] => none
  | _ + 1, '"' :: rest => some (some [], rest)
  | fuel + 1, '\\' :: 'u' :: rest => do
    let (c, rest) ← scanUnicode? rest
    let (cs, rest) ← scanString? fuel rest
    return (consText c cs, rest)
  | fuel + 1, '\\' :: e :: rest => do
    let c ← escaped? e
    let (cs, rest) ← scanString? fuel rest
    return (consText (some c) cs, rest)
  | fuel + 1, c :: rest =>
    if c.toNat < 0x20 ∨ c = '\\' then none
    else (scanString? fuel rest).map fun (cs, rest) => (consText (some c) cs, rest)

/-- The value that a string is. -/
def ofString : Option (List Char) → Json
  | some cs => .text (String.ofList cs)
  | none => .noText

/-- The digits of a number before its point, without leading zeros. -/
def isWhole (digits : List Char) : Bool :=
  match digits with
  | [] => false
  | '0' :: rest => rest.isEmpty
  | _ => true

/-- The power of ten at the start of a text, if one is written, and the rest. -/
def scanPower? : List Char → Option (Option Int × List Char)
  | c :: rest =>
    if c = 'e' ∨ c = 'E' then
      match Number.scanExponent (c :: rest) with
      | (value, rest') => if rest'.length = rest.length + 1 then none else some (some value, rest')
    else some (none, c :: rest)
  | [] => some (none, [])

/-- The number at the start of a text. -/
def scanNumber? (s : List Char) : Option (Json × List Char) :=
  let (negative, afterSign) := match s with
    | '-' :: rest => (true, rest)
    | _ => (false, s)
  let (whole, afterWhole) := Number.scanDigits afterSign
  let (fraction, afterFraction) := Number.scanFraction afterWhole
  if !isWhole whole || (fraction.isEmpty && afterWhole.head? == some '.') then none
  else do
    let (power, rest) ← scanPower? afterFraction
    let n : Int := decimalNumber whole
    if fraction.isEmpty ∧ power.isNone ∧ ¬ (negative ∧ n = 0) then
      some (.integer (if negative then -n else n), rest)
    else some (.real (Number.Numeral.toFloat ⟨negative, whole, fraction, power.getD 0⟩), rest)

mutual

/-- The value at the start of a text. -/
def scanValue? : Nat → List Char → Option (Json × List Char)
  | 0, _ => none
  | fuel + 1, s =>
    match s with
    | 'n' :: 'u' :: 'l' :: 'l' :: rest => some (.null, rest)
    | 't' :: 'r' :: 'u' :: 'e' :: rest => some (.boolean true, rest)
    | 'f' :: 'a' :: 'l' :: 's' :: 'e' :: rest => some (.boolean false, rest)
    | '"' :: rest => (scanString? fuel rest).map fun (cs, rest) => (ofString cs, rest)
    | '[' :: rest =>
      match skipGaps rest with
      | ']' :: rest => some (.list [], rest)
      | rest => (scanItems? fuel rest).map fun (items, rest) => (.list items, rest)
    | '\x7b' :: rest =>
      match skipGaps rest with
      | '\x7d' :: rest => some (.record [], rest)
      | rest => (scanEntries? fuel rest).map fun (entries, rest) => (.record entries, rest)
    | s => scanNumber? s

/-- The items of a list, with its closing bracket. -/
def scanItems? : Nat → List Char → Option (List Json × List Char)
  | 0, _ => none
  | fuel + 1, s => do
    let (item, rest) ← scanValue? fuel s
    match skipGaps rest with
    | ',' :: rest =>
      let (items, rest) ← scanItems? fuel (skipGaps rest)
      return (item :: items, rest)
    | ']' :: rest => return ([item], rest)
    | _ => none

/-- The entries of a record, with its closing brace. -/
def scanEntries? : Nat → List Char → Option (List (String × Json) × List Char)
  | 0, _ => none
  | fuel + 1, s => do
    let rest ← after? ['"'] s
    let (key, rest) ← scanString? fuel rest
    let key ← key
    let rest ← after? [':'] (skipGaps rest)
    let (value, rest) ← scanValue? fuel (skipGaps rest)
    let entry := (String.ofList key, value)
    match skipGaps rest with
    | ',' :: rest =>
      let (entries, rest) ← scanEntries? fuel (skipGaps rest)
      return (entry :: entries, rest)
    | '\x7d' :: rest => return ([entry], rest)
    | _ => none

end

/-- The value of a text. -/
def parse? (text : String) : Option Json :=
  match scanValue? (2 * text.length + 2) (skipGaps text.toList) with
  | some (value, rest) => if (skipGaps rest).isEmpty then some value else none
  | none => none

end VectorIcon.Json
