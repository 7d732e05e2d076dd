/-!
# Blank characters and the cutting of text

Text is cut on lists of characters. `isBlank` is the Unicode property White_Space; `trim` takes blanks
off both ends, and `fields` gives the maximal runs between separators, so that empty pieces never
appear (`fields_ne_nil`).
-/

namespace VectorIcon.Text

/-- A character of the Unicode class White_Space. -/
def isBlank (c : Char) : Bool :=
  let n := c.toNat
  (0x09 ≤ n && n ≤ 0x0D) || n == 0x20 || n == 0x85 || n == 0xA0 || n == 0x1680
    || (0x2000 ≤ n && n ≤ 0x200A) || n == 0x2028 || n == 0x2029 || n == 0x202F || n == 0x205F
    || n == 0x3000

/-- An ASCII letter. -/
def isLetter (c : Char) : Bool :=
  ('a' ≤ c && c ≤ 'z') || ('A' ≤ c && c ≤ 'Z')

/-- An ASCII digit. -/
def isDigit (c : Char) : Bool :=
  '0' ≤ c && c ≤ '9'

/-- An ASCII letter or digit. -/
def isAlphanumeric (c : Char) : Bool :=
  isLetter c || isDigit c

/-- The value of a hexadecimal digit. -/
def hexValue? (c : Char) : Option Nat :=
  if '0' ≤ c ∧ c ≤ '9' then some (c.toNat - '0'.toNat)
  else if 'a' ≤ c ∧ c ≤ 'f' then some (c.toNat - 'a'.toNat + 10)
  else if 'A' ≤ c ∧ c ≤ 'F' then some (c.toNat - 'A'.toNat + 10)
  else none

/-- The value of a run of hexadecimal digits, none when a character is not one. -/
def hexNumber? (s : List Char) : Option Nat :=
  s.foldlM (fun n c => (hexValue? c).map (16 * n + ·)) 0

/-- The value of a run of decimal digits. -/
def decimalNumber (digits : List Char) : Nat :=
  digits.foldl (fun n c => 10 * n + (c.toNat - '0'.toNat)) 0

/-- The text without the characters of a class at its end. -/
def dropEndWhile (p : Char → Bool) (s : List Char) : List Char :=
  (s.reverse.dropWhile p).reverse

/-- The text without the characters of a class at either end. -/
def trimBy (p : Char → Bool) (s : List Char) : List Char :=
  dropEndWhile p (s.dropWhile p)

/-- The text without the blanks at either end. -/
def trim (s : List Char) : List Char :=
  trimBy isBlank s

/-- The text after a given beginning. -/
def after? (start s : List Char) : Option (List Char) :=
  if start.isPrefixOf s then some (s.drop start.length) else none

/-- The text before a given ending. -/
def before? (ending s : List Char) : Option (List Char) :=
  if ending.isSuffixOf s then some (s.take (s.length - ending.length)) else none

/-- The parts of the text before and after the first occurrence of a character. -/
def cut? (c : Char) (s : List Char) : Option (List Char × List Char) :=
  match s.dropWhile (· != c) with
  | [] => none
  | _ :: rest => some (s.takeWhile (· != c), rest)

/-- The text stands somewhere in another one. -/
def occurs (part : List Char) : List Char → Bool
  | [] => part.isEmpty
  | c :: rest => part.isPrefixOf (c :: rest) || occurs part rest

/-- The maximal runs of characters that are no separators. -/
def fields (separator : Char → Bool) (s : List Char) : List (List Char) :=
  (s.splitOnP separator).filter (fun piece => !piece.isEmpty)

/-- The text in lower case, as far as ASCII letters go. -/
def lower (s : List Char) : List Char :=
  s.map Char.toLower

theorem length_dropWhile_le (p : Char → Bool) (s : List Char) :
    (s.dropWhile p).length ≤ s.length :=
  (List.dropWhile_suffix p).length_le

theorem fields_ne_nil {separator : Char → Bool} {s piece : List Char}
    (h : piece ∈ fields separator s) : piece ≠ [] := by
  rintro rfl
  simp [fields] at h

theorem eq_append_of_cut? {c : Char} {s a b : List Char} (h : cut? c s = some (a, b)) :
    s = a ++ c :: b := by
  unfold cut? at h
  split at h
  · simp at h
  next d rest hd =>
    obtain ⟨rfl, rfl⟩ : s.takeWhile (· != c) = a ∧ rest = b := by simpa using h
    have hc : d = c := by
      have := List.head?_dropWhile_not (· != c) s
      simpa [hd] using this
    subst hc
    rw [← hd, List.takeWhile_append_dropWhile]

theorem not_mem_of_cut? {c : Char} {s a b : List Char} (h : cut? c s = some (a, b)) : c ∉ a := by
  unfold cut? at h
  split at h
  · cases h
  · cases h
    intro hc
    have hne := List.all_eq_true.1 List.all_takeWhile c hc
    simp at hne

theorem cut?_append {c : Char} {a : List Char} (h : c ∉ a) (b : List Char) :
    cut? c (a ++ c :: b) = some (a, b) := by
  have hpass : ∀ x ∈ a, (x != c) = true := by
    intro x hx
    rw [bne_iff_ne]
    rintro rfl
    exact h hx
  unfold cut?
  rw [List.dropWhile_append_of_pos hpass, List.takeWhile_append_of_pos hpass]
  simp

end VectorIcon.Text
