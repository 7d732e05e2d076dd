import VectorIcon.Template.Token

/-!
# Pieces of a template

A template is text with tags in it: outputs, blocks, comments, and raw parts whose tags are text. A minus
at the edge of a tag takes away all white space next to it. In the tight layout a block also takes the line
feed after it and the blanks before it on its line; a plus turns this off. One line feed at the end of the
template does not count.
-/

namespace VectorIcon.Template

open Text

/-- A part of a template. -/
inductive Piece
  | text (s : String)
  | output (tokens : List Token)
  | block (tokens : List Token)
  deriving Repr

/-- What a tag is. -/
inductive Tag
  | output
  | block
  | comment
  deriving Repr, DecidableEq

/-- The mark that closes a tag. -/
def Tag.closing : Tag → List Char
  | .output => ['\x7d', '\x7d']
  | .block => ['%', '\x7d']
  | .comment => ['#', '\x7d']

/-- The tag that starts here, and the text after its mark. -/
def opening? : List Char → Option (Tag × List Char)
  | '\x7b' :: '\x7b' :: rest => some (.output, rest)
  | '\x7b' :: '%' :: rest => some (.block, rest)
  | '\x7b' :: '#' :: rest => some (.comment, rest)
  | _ => none

/-- The edge after the mark that opens a tag. -/
def openingEdge : List Char → Edge × List Char
  | '-' :: rest => (.trim, rest)
  | '+' :: rest => (.keep, rest)
  | rest => (.plain, rest)

/-- The text before the first tag, and the tag with the text after its mark. -/
def splitAtTag : List Char → List Char × Option (Tag × List Char)
  | [] => ([], none)
  | c :: rest =>
    match opening? (c :: rest) with
    | some opened => ([], some opened)
    | none =>
      let (before, opened) := splitAtTag rest
      (c :: before, opened)

/-- The end of a line. -/
def isLineEnd (c : Char) : Bool :=
  c == '\n' || c == '\r'

/-- The text without the blanks after its last line end, if nothing else stands there. `atStart` says that
the text itself begins a line. -/
def stripLine (atStart : Bool) (s : List Char) : List Char :=
  let kept := dropEndWhile (fun c => isBlank c && !isLineEnd c) s
  match kept.getLast? with
  | none => if atStart then [] else s
  | some c => if isLineEnd c then kept else s

/-- The text without blanks at its end. -/
def dropEndBlanks (s : List Char) : List Char :=
  dropEndWhile isBlank s

/-- The text before a tag, by the edge of the tag. -/
def beforeTag (tight atStart : Bool) (tag : Tag) (edge : Edge) (s : List Char) : List Char :=
  match edge with
  | .trim => dropEndBlanks s
  | .keep => s
  | .plain => if tight && tag != .output then stripLine atStart s else s

/-- The text without one line end at its start. -/
def dropLineEnd (s : List Char) : List Char :=
  match s with
  | '\r' :: '\n' :: rest => rest
  | '\r' :: rest => rest
  | '\n' :: rest => rest
  | _ => s

/-- The text after a tag, by the edge of the tag. -/
def afterTag (tight : Bool) (tag : Tag) (edge : Edge) (s : List Char) : List Char :=
  match edge with
  | .trim => s.dropWhile isBlank
  | .keep => s
  | .plain => if tight && tag != .output then dropLineEnd s else s

/-- The edge of a block that is one word, and the rest after it; the text starts after the mark. -/
def wordBlock? (word : List Char) (s : List Char) : Option (Edge × List Char) := do
  let s := (openingEdge s).2.dropWhile isGap
  let s ← after? word s
  closing? Tag.block.closing (s.dropWhile isGap)

/-- The text of a raw part, the edge of the block that ends it, the edge after that block, and the rest. -/
def scanRaw? : List Char → Option (List Char × Edge × Edge × List Char)
  | [] => none
  | c :: rest =>
    let ending := do
      let s ← after? ['\x7b', '%'] (c :: rest)
      let (edge, after) ← wordBlock? "endraw".toList s
      return ([], (openingEdge s).1, edge, after)
    ending.or do
      let (text, edge, after) ← scanRaw? rest
      return (c :: text, edge, after)

/-- The text of a comment without its last character if that is an edge, the edge, and the rest. -/
def scanComment? : List Char → Option (Edge × List Char)
  | [] => none
  | c :: rest => (closing? Tag.comment.closing (c :: rest)).or (scanComment? rest)

/-- Text as a piece, unless it is empty. -/
def textPiece (s : List Char) : List Piece :=
  if s.isEmpty then [] else [.text (String.ofList s)]

/-- The pieces of a text. `atStart` says that the text begins a line. -/
def scanPieces? (tight : Bool) : Nat → Bool → List Char → Option (List Piece)
  | 0, _, _ => none
  | fuel + 1, atStart, s => do
    let (before, opened) := splitAtTag s
    match opened with
    | none => return textPiece before
    | some (tag, inside) =>
      let (edge, body) := openingEdge inside
      let text := textPiece (beforeTag tight atStart tag edge before)
      let continueWith (pieces : List Piece) (edge : Edge) (rest : List Char) :
          Option (List Piece) := do
        let next := afterTag tight tag edge rest
        let more ← scanPieces? tight fuel (next.length < rest.length) next
        return text ++ pieces ++ more
      match tag with
      | .comment =>
        let (edge, rest) ← scanComment? body
        continueWith [] edge rest
      | .output =>
        let (tokens, edge, rest) ← scanTag? tag.closing (body.length + 1) 0 body
        continueWith [.output tokens] edge rest
      | .block =>
        match wordBlock? "raw".toList inside with
        | some (edge, rest) =>
          let (content, edgeBefore, edgeAfter, rest) ← scanRaw? rest
          let content := beforeTag tight true tag edgeBefore (afterTag tight tag edge content)
          continueWith (textPiece content) edgeAfter rest
        | none =>
          let (tokens, edge, rest) ← scanTag? tag.closing (body.length + 1) 0 body
          continueWith [.block tokens] edge rest

/-- The template without one line end at its end. -/
def dropFinalLineEnd (s : List Char) : List Char :=
  let s := if s.getLast? = some '\n' then s.dropLast else s
  if s.getLast? = some '\r' then s.dropLast else s

/-- The pieces of a template. -/
def pieces? (tight : Bool) (template : String) : Option (List Piece) :=
  let s := dropFinalLineEnd template.toList
  scanPieces? tight (s.length + 1) true s

end VectorIcon.Template
