import VectorIcon.Path.Cursor
import VectorIcon.Proofs.Path.Locality

/-!
# Bytes of path data

After a text that is ASCII there are as many bytes as characters, so the place there is one of characters
(`isPlace_of_split`). The byte at it is the first one of the next character (`lead`), which is that character
itself if it is ASCII and no ASCII character else: so the bytes that the reader looks for tell what the
characters are (`apply_lead`).
-/

namespace VectorIcon.Path.Cursor

/-! ## First bytes of characters -/

/-- The first byte of a character, as the character of its number. -/
def lead (c : Char) : Char :=
  Char.ofUInt8 ((String.utf8EncodeChar c).head String.utf8EncodeChar_ne_nil)

theorem toNat_lead (c : Char) :
    (lead c).toNat = ((String.utf8EncodeChar c).head String.utf8EncodeChar_ne_nil).toNat :=
  UInt8.toNat_toUInt32 _

theorem lead_of_ascii {c : Char} (h : c.val ≤ 127) : lead c = c := by
  have hbyte : String.utf8EncodeChar c = [c.val.toUInt8] :=
    String.utf8EncodeChar_eq_singleton (Char.utf8Size_eq_one_iff.2 h)
  have hval : c.val.toNat ≤ 127 := h
  refine Char.toNat_inj.1 ((toNat_lead c).trans ?_)
  simp only [hbyte, List.head_cons, Char.toNat]
  rw [UInt32.toNat_toUInt8]
  omega

/-- Characters of more than one byte do not begin with an ASCII byte. -/
theorem not_lead_le {c : Char} (h : ¬ c.val ≤ 127) : ¬ (lead c).val ≤ 127 := by
  have hval : ¬ c.val.toNat ≤ 127 := h
  show ¬ (lead c).toNat ≤ 127
  rw [toNat_lead]
  simp only [String.utf8EncodeChar]
  split
  · omega
  · split
    · rw [List.head_cons, UInt8.toNat_ofNat']
      omega
    · split
      · rw [List.head_cons, UInt8.toNat_ofNat']
        omega
      · rw [List.head_cons, UInt8.toNat_ofNat']
        omega

theorem isAscii_singleton {c : Char} (h : c.val ≤ 127) : IsAscii [c] :=
  fun _ hd => List.mem_singleton.1 hd ▸ h

/-- All characters of the kind are ASCII. -/
def IsAsciiKind (p : Char → Bool) : Prop :=
  ∀ c, p c = true → c.val ≤ 127

theorem isAsciiKind_beq {d : Char} (hd : d.val ≤ 127) : IsAsciiKind (· == d) :=
  fun _ hc => eq_of_beq hc ▸ hd

theorem IsAsciiKind.or {p q : Char → Bool} (hp : IsAsciiKind p) (hq : IsAsciiKind q) :
    IsAsciiKind fun c => p c || q c :=
  fun c hc => (Bool.or_eq_true_iff.1 hc).elim (hp c) (hq c)

theorem isAsciiKind_isDigit : IsAsciiKind Text.isDigit :=
  fun _ hc => val_le_of_isNumeralChar (isNumeralChar_of_isDigit hc)

theorem isAsciiKind_isLetter : IsAsciiKind Text.isLetter :=
  fun _ hc => val_le_of_isLetter hc

theorem isAsciiKind_isSeparator : IsAsciiKind isSeparator :=
  ((((isAsciiKind_beq (by decide)).or (isAsciiKind_beq (by decide))).or (isAsciiKind_beq (by decide))).or
    (isAsciiKind_beq (by decide))).or (isAsciiKind_beq (by decide)) |>.or (isAsciiKind_beq (by decide))

theorem isAsciiKind_isSign : IsAsciiKind isSign :=
  (isAsciiKind_beq (by decide)).or (isAsciiKind_beq (by decide))

theorem isAsciiKind_isMark : IsAsciiKind isMark :=
  (isAsciiKind_beq (by decide)).or (isAsciiKind_beq (by decide))

theorem isAsciiKind_isFirst : IsAsciiKind isFirst :=
  isAsciiKind_isDigit.or (isAsciiKind_beq (by decide))

/-- Kinds of ASCII characters are told by the first byte. -/
theorem apply_lead {p : Char → Bool} (hp : IsAsciiKind p) (c : Char) : p (lead c) = p c := by
  by_cases h : c.val ≤ 127
  · rw [lead_of_ascii h]
  · have hlead : p (lead c) ≠ true := fun ht => not_lead_le h (hp _ ht)
    have hc : p c ≠ true := fun ht => h (hp _ ht)
    rw [Bool.eq_false_iff.2 hlead, Bool.eq_false_iff.2 hc]

theorem any_map_lead {p : Char → Bool} (hp : IsAsciiKind p) (rest : List Char) :
    (rest.head?.map lead).any p = rest.head?.any p := by
  cases rest with
  | nil => rfl
  | cons c rest => exact apply_lead hp c

theorem getElem?_append_size (a b : ByteArray) : (a ++ b)[a.size]? = b[0]? := by
  by_cases h : 0 < b.size
  · have hsize : a.size < (a ++ b).size := by
      rw [ByteArray.size_append]
      omega
    rw [getElem?_pos (a ++ b) a.size hsize, getElem?_pos b 0 h, ByteArray.getElem_append_right (Nat.le_refl _)]
    simp
  · have hsize : ¬ a.size < (a ++ b).size := by
      rw [ByteArray.size_append]
      omega
    rw [getElem?_neg (a ++ b) a.size hsize, getElem?_neg b 0 h]

/-- The byte after a text is the first byte of the next character. -/
theorem getElem?_toByteArray_append (s : String) (rest : List Char) :
    (s ++ String.ofList rest).toByteArray[s.utf8ByteSize]?.map Char.ofUInt8 = rest.head?.map lead := by
  rw [String.toByteArray_append, ← String.size_toByteArray, getElem?_append_size, String.toByteArray_ofList]
  cases rest with
  | nil => rfl
  | cons c rest =>
    have hfirst : 0 < (String.utf8EncodeChar c).toByteArray.size := by
      rw [List.size_toByteArray]
      exact List.length_pos_iff.2 String.utf8EncodeChar_ne_nil
    have hsize : 0 < ((String.utf8EncodeChar c).toByteArray ++ rest.utf8Encode).size := by
      rw [ByteArray.size_append]
      omega
    rw [List.utf8Encode_cons, List.utf8Encode_singleton, getElem?_pos _ 0 hsize,
      ByteArray.getElem_append_left hfirst, List.getElem_toByteArray, List.head?_cons, Option.map_some,
      Option.map_some, lead, List.head_eq_getElem]

/-! ## Places between characters -/

/-- The place is in the text, at a character or at the end. -/
def IsPlace (data : String) (pos : Nat) : Prop :=
  pos ≤ data.utf8ByteSize ∧ String.Pos.Raw.IsValid data ⟨pos⟩

theorem isPlace_append (a b : String) : IsPlace (a ++ b) a.utf8ByteSize := by
  refine ⟨?_, String.Pos.Raw.isValid_iff_exists_append.2 ⟨a, b, rfl, rfl⟩⟩
  rw [String.utf8ByteSize_append]
  exact Nat.le_add_right ..

/-- What stands between two texts is cut out. -/
theorem textBetween?_append (a b c : String) :
    textBetween? (a ++ b ++ c) a.utf8ByteSize (a.utf8ByteSize + b.utf8ByteSize) = some b := by
  have hstart : IsPlace (a ++ b ++ c) a.utf8ByteSize := by
    rw [String.append_assoc]
    exact isPlace_append a (b ++ c)
  have hfinish : IsPlace (a ++ b ++ c) (a.utf8ByteSize + b.utf8ByteSize) := by
    rw [← String.utf8ByteSize_append]
    exact isPlace_append (a ++ b) c
  rw [textBetween?, dif_pos ⟨hstart.2, hfinish.2, Nat.le_add_right ..⟩, Option.some_inj, ← String.toByteArray_inj,
    String.toByteArray_extract]
  simp only [String.offset_pos, String.toByteArray_append, ← String.size_toByteArray]
  rw [ByteArray.extract_append, ByteArray.extract_append_eq_right rfl rfl, ByteArray.size_append]
  simp

section

variable {data : String} {before w rest : List Char}

theorem eq_append_of_split (h : data.toList = before ++ rest) :
    data = String.ofList before ++ String.ofList rest := by
  rw [← String.toList_inj, String.toList_append, String.toList_ofList, String.toList_ofList, h]

theorem isPlace_of_split (h : data.toList = before ++ rest) (hbefore : IsAscii before) :
    IsPlace data before.length := by
  rw [eq_append_of_split h, ← utf8ByteSize_of_isAscii hbefore]
  exact isPlace_append ..

/-- The byte after ASCII characters tells the next character. -/
theorem getElem?_of_split (h : data.toList = before ++ rest) (hbefore : IsAscii before) :
    data.toByteArray[before.length]?.map Char.ofUInt8 = rest.head?.map lead := by
  rw [eq_append_of_split h, ← utf8ByteSize_of_isAscii hbefore]
  exact getElem?_toByteArray_append ..

theorem textBetween?_of_split (h : data.toList = before ++ (w ++ rest)) (hbefore : IsAscii before)
    (hw : IsAscii w) : textBetween? data before.length (before.length + w.length) = some (String.ofList w) := by
  rw [eq_append_of_split h, String.ofList_append, ← String.append_assoc, ← utf8ByteSize_of_isAscii hbefore,
    ← utf8ByteSize_of_isAscii hw]
  exact textBetween?_append ..

/-- An excerpt shows the rest of the text. -/
theorem excerptAt_of_split (h : data.toList = before ++ rest) (hbefore : IsAscii before) :
    excerptAt data before.length = excerpt rest := by
  have hcut := textBetween?_append (String.ofList before) (String.ofList rest) ""
  rw [String.append_empty, ← eq_append_of_split h, ← String.utf8ByteSize_append, ← eq_append_of_split h,
    utf8ByteSize_of_isAscii hbefore] at hcut
  rw [excerptAt, hcut, Option.getD_some, String.toList_ofList]

end

end VectorIcon.Path.Cursor
