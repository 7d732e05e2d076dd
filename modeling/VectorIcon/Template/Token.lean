import VectorIcon.Number.Numeral

/-!
# Tokens of template tags

A tag holds words, quoted texts, numbers and signs. It goes on to its closing mark; a mark inside
brackets does not close it, so that a record of records can stand at the end of a tag.
-/

namespace VectorIcon.Template

open Text

/-- A token of a tag. -/
inductive Token
  | word (name : String)
  | text (value : String)
  | whole (value : Nat)
  | decimal (value : Float)
  | sign (mark : String)
  deriving Repr, DecidableEq

/-- What the edge of a tag does to the white space next to it. -/
inductive Edge
  | plain
  | trim
  | keep
  deriving Repr, DecidableEq

/-- White space between tokens. -/
def isGap (c : Char) : Bool :=
  c == ' ' || c == '\t' || c == '\n' || c == '\r' || c == '\x0c'

/-- The first character of a word. -/
def startsWord (c : Char) : Bool :=
  isLetter c || c == '_'

/-- A later character of a word. -/
def continuesWord (c : Char) : Bool :=
  isAlphanumeric c || c == '_'

/-- The character that a letter after a backslash stands for. -/
def escaped? : Char → Option Char
  | '"' => some '"'
  | '\\' => some '\\'
  | '/' => some '/'
  | '\x27' => some '\x27'
  | 'b' => some '\x08'
  | 'f' => some '\x0c'
  | 'n' => some '\n'
  | 'r' => some '\r'
  | 't' => some '\t'
  | _ => none

/-- The character of four hexadecimal digits, joined with a following escape when it is half of a
surrogate pair, and the rest. -/
def scanUnicode? : List Char → Option (Char × List Char)
  | a :: b :: c :: d :: rest => do
    let unit ← hexNumber? [a, b, c, d]
    if unit < 0xD800 ∨ 0xE000 ≤ unit then return (Char.ofNat unit, rest)
    if 0xDC00 ≤ unit then none
    else match rest with
      | '\\' :: 'u' :: e :: f :: g :: h :: rest =>
        let low ← hexNumber? [e, f, g, h]
        if 0xDC00 ≤ low ∧ low < 0xE000 then
          return (Char.ofNat (0x10000 + (unit - 0xD800) * 0x400 + (low - 0xDC00)), rest)
        else none
      | _ => none
  | _ => none

/-- The characters of a quoted text after its opening quote, and the rest after its closing one. -/
def scanQuoted? (quote : Char) : Nat → List Char → Option (List Char × List Char)
  | 0, _ => none
  | _ + 1, [] => none
  | fuel + 1, '\\' :: 'u' :: rest => do
    let (c, rest) ← scanUnicode? rest
    let (cs, rest) ← scanQuoted? quote fuel rest
    return (c :: cs, rest)
  | fuel + 1, '\\' :: e :: rest => do
    let c ← escaped? e
    let (cs, rest) ← scanQuoted? quote fuel rest
    return (c :: cs, rest)
  | fuel + 1, c :: rest =>
    if c = quote then some ([], rest)
    else if c = '\\' then none
    else (scanQuoted? quote fuel rest).map fun (cs, rest) => (c :: cs, rest)

/-- Digits that may be grouped by underscores, and the rest. -/
def scanGrouped (s : List Char) : List Char × List Char :=
  ((s.takeWhile fun c => isDigit c || c == '_').filter isDigit,
    s.dropWhile fun c => isDigit c || c == '_')

/-- A number of another base after its mark, and the rest. -/
def scanBased? (base : Nat) (s : List Char) : Option (Token × List Char) :=
  let digits := (s.takeWhile fun c => (hexValue? c).isSome || c == '_').filter (· != '_')
  let values := digits.filterMap hexValue?
  if values.isEmpty || values.any (base ≤ ·) then none
  else some (.whole (values.foldl (fun n v => base * n + v) 0),
    s.dropWhile fun c => (hexValue? c).isSome || c == '_')

/-- The number at the start of a text that starts with a digit, and the rest. -/
def scanNumber? (s : List Char) : Option (Token × List Char) :=
  match s with
  | '0' :: 'x' :: rest | '0' :: 'X' :: rest => scanBased? 16 rest
  | '0' :: 'o' :: rest | '0' :: 'O' :: rest => scanBased? 8 rest
  | '0' :: 'b' :: rest | '0' :: 'B' :: rest => scanBased? 2 rest
  | _ =>
    let (whole, afterWhole) := scanGrouped s
    let (fraction, afterFraction) := match afterWhole with
      | '.' :: rest => scanGrouped rest
      | _ => ([], afterWhole)
    let (exponent, rest) := Number.scanExponent afterFraction
    if rest.length = afterWhole.length then some (.whole (decimalNumber whole), rest)
    else some (.decimal (Number.Numeral.toFloat ⟨false, whole, fraction, exponent⟩), rest)

/-- The signs of two characters. -/
def longSigns : List String :=
  ["//", "**", "==", "!=", ">=", "<="]

/-- The signs of one character. -/
def shortSigns : List Char :=
  ['+', '-', '*', '/', '%', '.', ',', ':', '~', '|', '=', '<', '>', '(', ')', '[', ']', '\x7b', '\x7d']

/-- The token at the start of a text, and the rest. -/
def scanToken? (s : List Char) : Option (Token × List Char) :=
  match longSigns.find? fun mark => mark.toList.isPrefixOf s with
  | some mark => some (.sign mark, s.drop 2)
  | none =>
    match s with
    | [] => none
    | c :: rest =>
      if c = '"' ∨ c = '\x27' then
        (scanQuoted? c s.length rest).map fun (cs, rest) => (.text (String.ofList cs), rest)
      else if isDigit c then scanNumber? s
      else if startsWord c then
        some (.word (String.ofList (s.takeWhile continuesWord)), s.dropWhile continuesWord)
      else if shortSigns.contains c then some (.sign (String.singleton c), rest)
      else none

/-- The depth of brackets after a token. -/
def Token.depthAfter (depth : Nat) : Token → Nat
  | .sign mark =>
    if ["(", "[", "\x7b"].contains mark then depth + 1
    else if [")", "]", "\x7d"].contains mark then depth - 1
    else depth
  | _ => depth

/-- The edge at the start of a text that closes a tag, and the rest. -/
def closing? (mark s : List Char) : Option (Edge × List Char) :=
  ((after? ('-' :: mark) s).map (Edge.trim, ·)).or
    (((after? ('+' :: mark) s).map (Edge.keep, ·)).or ((after? mark s).map (Edge.plain, ·)))

/-- The tokens of a tag at a depth of brackets, its edge, and the rest of the text. -/
def scanTag? (mark : List Char) : Nat → Nat → List Char → Option (List Token × Edge × List Char)
  | 0, _, _ => none
  | fuel + 1, depth, s => do
    let s := s.dropWhile isGap
    match if depth = 0 then closing? mark s else none with
    | some (edge, rest) => return ([], edge, rest)
    | none =>
      let (token, rest) ← scanToken? s
      let (tokens, edge, rest) ← scanTag? mark fuel (token.depthAfter depth) rest
      return (token :: tokens, edge, rest)

end VectorIcon.Template
