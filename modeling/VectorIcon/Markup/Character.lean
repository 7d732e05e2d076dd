/-!
# Characters of markup

The classes of characters that the grammar of documents is written with.
-/

namespace VectorIcon.Markup

/-- A blank. -/
def isSpace (c : Char) : Bool :=
  c == ' ' || c == '\t' || c == '\n' || c == '\r'

/-- A character that may stand in a document. -/
def isDocumentChar (c : Char) : Bool :=
  isSpace c || (0x20 ≤ c.toNat && c.toNat != 0xFFFE && c.toNat != 0xFFFF)

/-- A character that may begin a name. -/
def isNameStart (c : Char) : Bool :=
  let n := c.toNat
  ('a' ≤ c && c ≤ 'z') || ('A' ≤ c && c ≤ 'Z') || c == ':' || c == '_'
    || (0xC0 ≤ n && n ≤ 0xD6) || (0xD8 ≤ n && n ≤ 0xF6) || (0xF8 ≤ n && n ≤ 0x2FF)
    || (0x370 ≤ n && n ≤ 0x37D) || (0x37F ≤ n && n ≤ 0x1FFF) || (0x200C ≤ n && n ≤ 0x200D)
    || (0x2070 ≤ n && n ≤ 0x218F) || (0x2C00 ≤ n && n ≤ 0x2FEF) || (0x3001 ≤ n && n ≤ 0xD7FF)
    || (0xF900 ≤ n && n ≤ 0xFDCF) || (0xFDF0 ≤ n && n ≤ 0xFFFD) || (0x10000 ≤ n && n ≤ 0xEFFFF)

/-- A character that may stand in a name. -/
def isNameChar (c : Char) : Bool :=
  let n := c.toNat
  isNameStart c || ('0' ≤ c && c ≤ '9') || c == '-' || c == '.' || n == 0xB7
    || (0x300 ≤ n && n ≤ 0x36F) || (0x203F ≤ n && n ≤ 0x2040)

end VectorIcon.Markup
