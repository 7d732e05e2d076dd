import VectorIcon.Color.Hex
import VectorIcon.Proofs.Color.Argb
import VectorIcon.Proofs.Text.Blank

/-!
# Hexadecimal colors

What a hexadecimal text stands for depends on its digits only, whatever marks and blanks are around them
(`hexBody_of_isMarked`) and whichever letters are capitals (`digitsColor?_lower`). There are colors for three,
four, six and eight digits (`isSome_digitsColor?_iff`). Eight digits are the channels as they are written, so that
the text of a color is read back; the short forms stand for longer ones (`hex_forms`).
-/

namespace VectorIcon.Color

open Text

variable {c : Color} {marks : Nat} {digits s : List Char} {value : String}

/-! ## Digits -/

/-- A hexadecimal digit, small or capital. -/
def isHexDigit (c : Char) : Bool :=
  isDigit c || ('a' ≤ c && c ≤ 'f') || ('A' ≤ c && c ≤ 'F')

theorem isHexDigit_iff (d : Char) : isHexDigit d = true ↔
    (48 ≤ d.toNat ∧ d.toNat ≤ 57) ∨ (97 ≤ d.toNat ∧ d.toNat ≤ 102) ∨ (65 ≤ d.toNat ∧ d.toNat ≤ 70) := by
  have hle {a b : Char} : a ≤ b ↔ a.toNat ≤ b.toNat := Iff.rfl
  simp only [isHexDigit, isDigit, Bool.or_eq_true, Bool.and_eq_true, decide_eq_true_eq, hle, or_assoc]
  rfl

/-- The digits are the characters that have a value as such. -/
theorem isSome_hexValue?_iff (d : Char) : (hexValue? d).isSome = true ↔ isHexDigit d = true := by
  simp only [isHexDigit, isDigit, Bool.or_eq_true, Bool.and_eq_true, decide_eq_true_eq]
  unfold hexValue?
  split
  · next h => exact iff_of_true rfl (.inl (.inl h))
  split
  · next h => exact iff_of_true rfl (.inl (.inr h))
  split
  · next h => exact iff_of_true rfl (.inr h)
  · next h₁ h₂ h₃ => exact iff_of_false Bool.false_ne_true (by rw [not_or, not_or]; exact ⟨⟨h₁, h₂⟩, h₃⟩)

/-- A letter has one value as a digit in both letter cases. -/
theorem hexValue?_toLower (d : Char) : hexValue? d.toLower = hexValue? d := by
  have hle {a b : Char} : a ≤ b ↔ a.toNat ≤ b.toNat := Iff.rfl
  have h0 : '0'.toNat = 48 := rfl
  have h9 : '9'.toNat = 57 := rfl
  have ha : 'a'.toNat = 97 := rfl
  have hf : 'f'.toNat = 102 := rfl
  have hA : 'A'.toNat = 65 := rfl
  have hF : 'F'.toNat = 70 := rfl
  simp only [hexValue?, hle, toNat_toLower, h0, h9, ha, hf, hA, hF]
  grind

/-- All characters have a value exactly when all are digits. -/
theorem isSome_mapM_hexValue?_iff (s : List Char) :
    (s.mapM hexValue?).isSome = true ↔ ∀ d ∈ s, isHexDigit d = true := by
  induction s with
  | nil => exact iff_of_true rfl fun _ hd => absurd hd List.not_mem_nil
  | cons d s ih =>
    rw [List.forall_mem_cons, ← ih, ← isSome_hexValue?_iff, List.mapM_cons]
    cases hexValue? d with
    | none => simp
    | some n => cases s.mapM hexValue? <;> simp

theorem length_of_mapM {ds : List Nat} (h : s.mapM hexValue? = some ds) : ds.length = s.length := by
  induction s generalizing ds with
  | nil =>
    obtain rfl := Option.some.inj h
    rfl
  | cons d s ih =>
    rw [List.mapM_cons] at h
    obtain ⟨n, -, h⟩ := Option.bind_eq_some_iff.1 h
    obtain ⟨ns, hns, h⟩ := Option.bind_eq_some_iff.1 h
    obtain rfl := Option.some.inj h
    rw [List.length_cons, List.length_cons, ih hns]

/-! ## Texts of digits -/

/-- The color of some digits, when there is one. -/
def digitsColor? (digits : List Char) : Option Color :=
  (digits.mapM hexValue?).bind ofHexDigits?

theorem ofHex_eq (value : String) : ofHex value =
    match digitsColor? (hexBody value.toList) with
    | some c => .ok c
    | none => .error (.malformedHex (String.ofList (trim value.toList))) := rfl

theorem ofHex_eq_ok_iff : ofHex value = .ok c ↔ digitsColor? (hexBody value.toList) = some c := by
  rw [ofHex_eq]
  cases digitsColor? (hexBody value.toList) with
  | none => exact iff_of_false nofun nofun
  | some c' => exact ⟨fun h => congrArg some (Except.ok.inj h), fun h => congrArg _ (Option.some.inj h)⟩

theorem ofHex_eq_error (h : digitsColor? (hexBody value.toList) = none) :
    ofHex value = .error (.malformedHex (String.ofList (trim value.toList))) := by
  rw [ofHex_eq, h]

/-- Exactly three, four, six or eight digits. -/
structure IsHexForm (digits : List Char) : Prop where
  length : digits.length ∈ [3, 4, 6, 8]
  all : ∀ d ∈ digits, isHexDigit d = true

theorem isSome_ofHexDigits?_iff (ds : List Nat) :
    (ofHexDigits? ds).isSome = true ↔ ds.length ∈ [3, 4, 6, 8] := by
  unfold ofHexDigits?
  split
  · exact iff_of_true rfl (by simp)
  · exact iff_of_true rfl (by simp)
  · exact iff_of_true rfl (by simp)
  · exact iff_of_true rfl (by simp)
  · next h₃ h₄ h₆ h₈ =>
    refine iff_of_false Bool.false_ne_true fun h => ?_
    match ds, h with
    | [_, _, _], _ => exact h₃ _ _ _ rfl
    | [_, _, _, _], _ => exact h₄ _ _ _ _ rfl
    | [_, _, _, _, _, _], _ => exact h₆ _ _ _ _ _ _ rfl
    | [_, _, _, _, _, _, _, _], _ => exact h₈ _ _ _ _ _ _ _ _ rfl

theorem isSome_digitsColor?_iff (digits : List Char) :
    (digitsColor? digits).isSome = true ↔ IsHexForm digits := by
  have hall := isSome_mapM_hexValue?_iff digits
  rw [digitsColor?]
  cases hds : digits.mapM hexValue? with
  | none =>
    rw [hds] at hall
    exact iff_of_false Bool.false_ne_true fun h => Bool.false_ne_true (hall.2 h.all)
  | some ds =>
    rw [hds] at hall
    rw [Option.bind_some, isSome_ofHexDigits?_iff, length_of_mapM hds]
    exact ⟨fun h => ⟨h, hall.1 rfl⟩, fun h => h.length⟩

theorem mapM_hexValue?_lower (s : List Char) : (lower s).mapM hexValue? = s.mapM hexValue? := by
  induction s with
  | nil => rfl
  | cons d s ih =>
    rw [List.mapM_cons, ← ih, ← hexValue?_toLower d]
    exact List.mapM_cons ..

theorem digitsColor?_lower (digits : List Char) : digitsColor? (lower digits) = digitsColor? digits := by
  rw [digitsColor?, mapM_hexValue?_lower, digitsColor?]

/-! ## Marks and blanks -/

/-- The text is a number of marks and then these digits, between any blanks. -/
def IsMarked (marks : Nat) (digits : List Char) (value : String) : Prop :=
  ∃ before after, IsBlanks before ∧ IsBlanks after ∧
    value.toList = before ++ (List.replicate marks '#' ++ digits ++ after)

theorem isMarked_hexBody (value : String) : ∃ marks, IsMarked marks (hexBody value.toList) value := by
  obtain ⟨before, after, hbefore, hafter, hvalue⟩ := exists_blanks value.toList
  have hmarks : (trim value.toList).takeWhile (· == '#') =
      List.replicate ((trim value.toList).takeWhile (· == '#')).length '#' := by
    rw [List.eq_replicate_iff]
    refine ⟨rfl, fun d hd => ?_⟩
    have hmark := List.mem_takeWhile_imp hd
    exact beq_iff_eq.1 hmark
  refine ⟨((trim value.toList).takeWhile (· == '#')).length, before, after, hbefore, hafter, ?_⟩
  rw [← hmarks, hexBody, List.takeWhile_append_dropWhile, ← hvalue]

theorem isBlank_of_isHexDigit {d : Char} (h : isHexDigit d = true) : isBlank d = false := by
  rw [isHexDigit_iff] at h
  unfold isBlank
  simp
  omega

/-- Without the blanks around it such a text is its marks and its digits. -/
theorem trim_of_isMarked (h : IsMarked marks digits value) (hdigits : ∀ d ∈ digits, isHexDigit d = true) :
    trim value.toList = List.replicate marks '#' ++ digits := by
  obtain ⟨before, after, hbefore, hafter, hvalue⟩ := h
  rw [hvalue]
  refine trim_between hbefore hafter (isTrimmed_of_forall fun d hd => ?_)
  rcases List.mem_append.1 hd with hd | hd
  · rw [List.eq_of_mem_replicate hd]
    decide
  · exact isBlank_of_isHexDigit (hdigits d hd)

theorem hexBody_of_isMarked (h : IsMarked marks digits value) (hdigits : ∀ d ∈ digits, isHexDigit d = true) :
    hexBody value.toList = digits := by
  have hmarks : ∀ d ∈ List.replicate marks '#', (d == '#') = true := fun d hd =>
    beq_iff_eq.2 (List.eq_of_mem_replicate hd)
  rw [hexBody, trim_of_isMarked h hdigits, List.dropWhile_append_of_pos hmarks]
  cases digits with
  | nil => rfl
  | cons d rest =>
    refine List.dropWhile_cons_of_neg fun hd => ?_
    have hdigit := hdigits d (List.mem_cons_self ..)
    rw [beq_iff_eq.1 hd] at hdigit
    exact absurd hdigit (by decide)

/-- Digits stand for a color when every text with these digits does, whatever is around them. -/
def Denote (digits : List Char) (c : Color) : Prop :=
  ∀ marks value, IsMarked marks digits value → ofHex value = .ok c

theorem denote_of_digitsColor? (h : digitsColor? digits = some c) : Denote digits c := by
  intro marks value hvalue
  have hform := (isSome_digitsColor?_iff digits).1 (Option.isSome_iff_exists.2 ⟨c, h⟩)
  rw [ofHex_eq_ok_iff, hexBody_of_isMarked hvalue hform.all, h]

/-! ## The text of a color -/

theorem digitsColor?_display (c : Color) :
    digitsColor? (hexDigits 6 c.argb.toNat ++ hexDigits 2 c.alpha.toUInt32.toNat) = some c := by
  have hlt := c.argb.toNat_lt
  have hdigit (n : Nat) : hexValue? (hexDigit (n % 16)) = some (n % 16) :=
    hexValue?_hexDigit (Nat.mod_lt n (by decide))
  have hvalues : (hexDigits 6 c.argb.toNat ++ hexDigits 2 c.alpha.toUInt32.toNat).mapM hexValue? =
      some [c.argb.toNat / 16 / 16 / 16 / 16 / 16 % 16, c.argb.toNat / 16 / 16 / 16 / 16 % 16,
        c.argb.toNat / 16 / 16 / 16 % 16, c.argb.toNat / 16 / 16 % 16, c.argb.toNat / 16 % 16,
        c.argb.toNat % 16, c.alpha.toNat / 16 % 16, c.alpha.toNat % 16] := by
    simp [hexDigits, hdigit]
  have hsum : [c.alpha.toNat / 16 % 16, c.alpha.toNat % 16,
      c.argb.toNat / 16 / 16 / 16 / 16 / 16 % 16, c.argb.toNat / 16 / 16 / 16 / 16 % 16,
      c.argb.toNat / 16 / 16 / 16 % 16, c.argb.toNat / 16 / 16 % 16, c.argb.toNat / 16 % 16,
      c.argb.toNat % 16].foldl (fun n d => 16 * n + d) 0 = c.argb.toNat := by
    rw [toNat_alpha]
    simp only [List.foldl_cons, List.foldl_nil]
    omega
  rw [digitsColor?, hvalues, Option.bind_some, ofHexDigits?, ofDigits, hsum, UInt32.ofNat_toNat]

theorem toList_display (c : Color) : c.display.toList =
    '#' :: (hexDigits 6 c.argb.toNat ++ hexDigits 2 c.alpha.toUInt32.toNat) := by
  have hmark : "#".toList = ['#'] := rfl
  rw [display, hexText, hexText, String.toList_append, String.toList_append, hmark, String.toList_ofList,
    String.toList_ofList, List.singleton_append, List.cons_append]

/-! ## Short forms -/

theorem exists_values {n : Nat} (h : ∀ d ∈ digits, isHexDigit d = true) (hlength : digits.length = n) :
    ∃ ds, digits.mapM hexValue? = some ds ∧ ds.length = n := by
  obtain ⟨ds, hds⟩ := Option.isSome_iff_exists.1 ((isSome_mapM_hexValue?_iff digits).2 h)
  exact ⟨ds, hds, (length_of_mapM hds).trans hlength⟩

theorem mapM_doubled {ds : List Nat} (h : s.mapM hexValue? = some ds) :
    (s.flatMap fun d => [d, d]).mapM hexValue? = some (ds.flatMap fun n => [n, n]) := by
  induction s generalizing ds with
  | nil =>
    obtain rfl := Option.some.inj h
    rfl
  | cons d s ih =>
    rw [List.mapM_cons] at h
    obtain ⟨n, hn, h⟩ := Option.bind_eq_some_iff.1 h
    obtain ⟨ns, hns, h⟩ := Option.bind_eq_some_iff.1 h
    obtain rfl := Option.some.inj h
    rw [List.flatMap_cons, List.mapM_append, ih hns]
    simp [hn]

/-- Three or four digits stand for what they stand for when each is written twice. -/
theorem exists_digitsColor?_doubled (h : ∀ d ∈ digits, isHexDigit d = true)
    (hlength : digits.length = 3 ∨ digits.length = 4) :
    ∃ c, digitsColor? digits = some c ∧ digitsColor? (digits.flatMap fun d => [d, d]) = some c := by
  obtain ⟨ds, hds, hlength'⟩ := exists_values h rfl
  unfold digitsColor?
  rw [mapM_doubled hds, hds]
  rw [← hlength'] at hlength
  match ds, hlength with
  | [_, _, _], _ => exact ⟨_, rfl, rfl⟩
  | [_, _, _, _], _ => exact ⟨_, rfl, rfl⟩

/-- Six digits stand for a color with a full alpha channel. -/
theorem exists_digitsColor?_opaque (h : ∀ d ∈ digits, isHexDigit d = true) (hlength : digits.length = 6) :
    ∃ c, digitsColor? digits = some c ∧ digitsColor? (digits ++ ['f', 'f']) = some c := by
  obtain ⟨ds, hds, hlength'⟩ := exists_values h hlength
  have hfull : ['f', 'f'].mapM hexValue? = some [15, 15] := by decide
  unfold digitsColor?
  rw [List.mapM_append, hds, hfull]
  match ds, hlength' with
  | [_, _, _, _, _, _], _ => exact ⟨_, rfl, rfl⟩

/-- The text of a color is read back in any letter case and with anything around its digits, three or four
digits are short for each of them twice, and six digits for a full alpha channel after them. -/
theorem hex_forms :
    (∀ (c : Color) (digits : List Char), lower ('#' :: digits) = lower c.display.toList → Denote digits c) ∧
      (∀ digits : List Char, (∀ d ∈ digits, isHexDigit d = true) → digits.length = 3 ∨ digits.length = 4 →
        ∃ c, Denote digits c ∧ Denote (digits.flatMap fun d => [d, d]) c) ∧
      ∀ digits : List Char, (∀ d ∈ digits, isHexDigit d = true) → digits.length = 6 →
        ∃ c, Denote digits c ∧ Denote (digits ++ ['f', 'f']) c := by
  refine ⟨fun c digits h => ?_, fun digits h hlength => ?_, fun digits h hlength => ?_⟩
  · rw [toList_display] at h
    have hdigits := (List.cons.inj h).2
    refine denote_of_digitsColor? ?_
    rw [← digitsColor?_lower]
    exact (congrArg digitsColor? hdigits).trans ((digitsColor?_lower _).trans (digitsColor?_display c))
  · obtain ⟨c, hshort, hlong⟩ := exists_digitsColor?_doubled h hlength
    exact ⟨c, denote_of_digitsColor? hshort, denote_of_digitsColor? hlong⟩
  · obtain ⟨c, hshort, hlong⟩ := exists_digitsColor?_opaque h hlength
    exact ⟨c, denote_of_digitsColor? hshort, denote_of_digitsColor? hlong⟩

theorem hex_forms_written :
    (lower "#ff0a1B80".toList = lower (display ⟨0x80FF0A1B⟩).toList ∧
        ofHex " ff0a1B80\n" = .ok ⟨0x80FF0A1B⟩) ∧
      ((∀ d ∈ "A1c".toList, isHexDigit d = true) ∧ "A1c".toList.length = 3 ∧
        ∃ c, ofHex "#A1c" = .ok c ∧ ofHex "AA11cc" = .ok c) ∧
      (∀ d ∈ "ffC107".toList, isHexDigit d = true) ∧ "ffC107".toList.length = 6 ∧
        ∃ c, ofHex "#ffC107" = .ok c ∧ ofHex "#ffC107ff" = .ok c := by
  have hbare {value : String} : IsMarked 0 value.toList value :=
    ⟨[], [], isBlanks_nil, isBlanks_nil, by simp⟩
  have hmarked {digits : List Char} : IsMarked 1 digits (String.ofList ('#' :: digits)) :=
    ⟨[], [], isBlanks_nil, isBlanks_nil, by simp⟩
  have hcase : lower "#ff0a1B80".toList = lower (display ⟨0x80FF0A1B⟩).toList := by decide +kernel
  have hthree : ∀ d ∈ "A1c".toList, isHexDigit d = true := List.all_eq_true.1 (by decide)
  have hsix : ∀ d ∈ "ffC107".toList, isHexDigit d = true := List.all_eq_true.1 (by decide)
  obtain ⟨c, hshort, hlong⟩ := hex_forms.2.1 "A1c".toList hthree (.inl rfl)
  obtain ⟨c', hplain, hopaque⟩ := hex_forms.2.2 "ffC107".toList hsix rfl
  exact ⟨⟨hcase, hex_forms.1 _ "ff0a1B80".toList hcase 0 _
      ⟨[' '], ['\n'], by decide, by decide, by decide +kernel⟩⟩,
    ⟨hthree, rfl, c, hshort 1 _ hmarked, hlong 0 _ hbare⟩, hsix, rfl, c', hplain 1 _ hmarked, hopaque 1 _ hmarked⟩

end VectorIcon.Color
