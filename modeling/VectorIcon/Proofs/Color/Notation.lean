import VectorIcon.Color.Notation
import VectorIcon.Proofs.Color.Hex

/-!
# Which texts are hexadecimal colors

A text with a character that is no letter is no word, so it is a hexadecimal color when a mark is its first
character, and a function otherwise (`parse_of_mem`). Hexadecimal colors are accepted with any number of marks
before exactly three, four, six or eight digits, with or without a look at the words first (`hex_accepted`).
-/

namespace VectorIcon.Color

open Text

variable {c : Char} {value : String}

/-! ## Words -/

theorem isLetter_of_keyword : ∀ entry ∈ keywords, ∀ c ∈ entry.1.toList, isLetter c = true := by
  have hall : keywords.all (fun entry => entry.1.toList.all isLetter) = true := by decide +kernel
  exact fun entry hentry => List.all_eq_true.1 (List.all_eq_true.1 hall entry hentry)

/-- Keywords are made of letters. -/
theorem ofKeyword?_eq_none (hc : c ∈ trim value.toList) (hletter : isLetter c = false) :
    ofKeyword? value = none := by
  have hmem : c ∈ (String.ofList (lower (trim value.toList))).toList := by
    rwa [String.toList_ofList, mem_lower_iff hletter]
  rw [ofKeyword?, Option.map_eq_none_iff, List.lookup_eq_none_iff]
  intro entry hentry
  rw [bne_iff_ne]
  intro hkey
  rw [hkey] at hmem
  rw [isLetter_of_keyword entry hentry c hmem] at hletter
  cases hletter

/-- A text with a character that is no letter is no word. -/
theorem parse_of_mem (hc : c ∈ trim value.toList) (hletter : isLetter c = false) :
    parse value =
      if (lower (trim value.toList)).head? = some '#' then
        (ofHex (String.ofList (lower (trim value.toList)))).map some
      else
        match (functionBody? (lower (trim value.toList))).bind fun (function, body) =>
            ofFunction? function (arguments body) with
        | some result => result.map some
        | none => .error (.unsupported (String.ofList (trim value.toList))) := by
  have hmem : c ∈ (String.ofList (lower (trim value.toList))).toList := by
    rwa [String.toList_ofList, mem_lower_iff hletter]
  have hword (word : String) (hword : word.toList.all isLetter = true) :
      String.ofList (lower (trim value.toList)) ≠ word := by
    rintro rfl
    rw [List.all_eq_true.1 hword c hmem] at hletter
    cases hletter
  have hnone := hword "none" (by decide)
  have htransparent := hword "transparent" (by decide)
  have hcurrent := hword "currentcolor" (by decide)
  have hkeyword : ofKeyword? (String.ofList (lower (trim value.toList))) = none := by
    refine ofKeyword?_eq_none (c := c) ?_ hletter
    rw [String.toList_ofList, trim_lower, trim_of_isTrimmed (isTrimmed_trim _), mem_lower_iff hletter]
    exact hc
  unfold parse
  refine (if_neg (not_or.2 ⟨hnone, htransparent⟩)).trans ((if_neg hcurrent).trans ?_)
  exact hkeyword ▸ rfl

/-! ## Hexadecimal colors -/

/-- The first character that is no blank is a mark. -/
def BeginsWithMark (value : String) : Prop :=
  (value.toList.dropWhile isBlank).head? = some '#'

/-- The text is a color as hexadecimal colors are accepted: digits of such a form after any marks. -/
def IsHex (value : String) : Prop :=
  ∃ marks digits, IsMarked marks digits value ∧ IsHexForm digits

/-- The text is a color as hexadecimal colors are documented: such digits after at most one mark. -/
def IsPlainHex (value : String) : Prop :=
  ∃ marks digits, marks ≤ 1 ∧ IsMarked marks digits value ∧ IsHexForm digits

theorem exists_ofHex_iff (value : String) : (∃ c, ofHex value = .ok c) ↔ IsHex value := by
  simp only [ofHex_eq_ok_iff, ← Option.isSome_iff_exists, isSome_digitsColor?_iff]
  constructor
  · intro h
    obtain ⟨marks, hmarks⟩ := isMarked_hexBody value
    exact ⟨marks, _, hmarks, h⟩
  · rintro ⟨marks, digits, hmarks, h⟩
    rwa [hexBody_of_isMarked hmarks h.all]

theorem ofHex_of_not_isHex (h : ¬ IsHex value) :
    ofHex value = .error (.malformedHex (String.ofList (trim value.toList))) := by
  refine ofHex_eq_error (Option.eq_none_iff_forall_ne_some.2 fun c hc => h ?_)
  exact (exists_ofHex_iff value).1 ⟨c, ofHex_eq_ok_iff.2 hc⟩

/-- What is documented is what is accepted without a second mark. -/
theorem isPlainHex_iff (value : String) :
    IsPlainHex value ↔ IsHex value ∧ ¬ ['#', '#'] <+: trim value.toList := by
  constructor
  · rintro ⟨marks, digits, hle, hmarks, hform⟩
    refine ⟨⟨marks, digits, hmarks, hform⟩, ?_⟩
    rintro ⟨rest, hrest⟩
    have hno : '#' ∉ digits := fun hmem => absurd (hform.all '#' hmem) (by decide)
    rw [trim_of_isMarked hmarks hform.all] at hrest
    -- the second mark would be a digit
    rcases Nat.le_one_iff_eq_zero_or_eq_one.1 hle with rfl | rfl
    · have hdigits : '#' :: '#' :: rest = digits := hrest
      exact hno (hdigits ▸ List.mem_cons_self ..)
    · have hdigits : '#' :: rest = digits := (List.cons.inj hrest).2
      exact hno (hdigits ▸ List.mem_cons_self ..)
  · rintro ⟨⟨marks, digits, hmarks, hform⟩, hsecond⟩
    refine ⟨marks, digits, Nat.le_of_not_lt fun hlt => hsecond ?_, hmarks, hform⟩
    rw [trim_of_isMarked hmarks hform.all]
    obtain ⟨k, rfl⟩ := Nat.exists_eq_add_of_le hlt
    refine ⟨List.replicate k '#' ++ digits, ?_⟩
    rw [← List.replicate_append_replicate]
    rfl

/-! ## A mark at the beginning -/

theorem hexBody_lower (s : List Char) : hexBody (lower (trim s)) = lower (hexBody s) := by
  have hmark : ((· == '#') ∘ Char.toLower) = (· == '#') := by
    funext d
    rw [Function.comp_apply, Bool.eq_iff_iff, beq_iff_eq, beq_iff_eq, toLower_eq_iff (by decide)]
  rw [hexBody, trim_lower, trim_of_isTrimmed (isTrimmed_trim s), lower, List.dropWhile_map, hmark, hexBody, lower]

theorem ofHex_lower (value : String) (c : Color) :
    ofHex (String.ofList (lower (trim value.toList))) = .ok c ↔ ofHex value = .ok c := by
  rw [ofHex_eq_ok_iff, ofHex_eq_ok_iff, String.toList_ofList, hexBody_lower, digitsColor?_lower]

theorem head?_trim (s : List Char) : (trim s).head? = (s.dropWhile isBlank).head? := by
  obtain ⟨b, hb, hs⟩ := exists_append_isBlanks (s.dropWhile isBlank)
  have hfirst := head?_dropWhile_isBlank s
  rw [hs, List.head?_append] at hfirst
  rw [hs, List.head?_append]
  show (dropEndWhile isBlank (s.dropWhile isBlank)).head? = _
  cases hhead : (dropEndWhile isBlank (s.dropWhile isBlank)).head? with
  | some d => rfl
  | none =>
    rw [hhead] at hfirst
    cases b with
    | nil => rfl
    | cons d b =>
      have hblank := hfirst d rfl
      rw [hb d (List.mem_cons_self ..)] at hblank
      cases hblank

theorem parse_of_beginsWithMark (h : BeginsWithMark value) :
    parse value = (ofHex (String.ofList (lower (trim value.toList)))).map some := by
  have hhead : (trim value.toList).head? = some '#' := (head?_trim _).trans h
  rw [parse_of_mem (List.mem_of_mem_head? hhead) (by decide), if_pos]
  rw [lower, List.head?_map, hhead]
  rfl

/-- Behind a mark at the beginning, hexadecimal colors are read alike by both readers. -/
theorem parse_marked_eq_ok_iff (h : BeginsWithMark value) (paint : Option Color) :
    parse value = .ok paint ↔ ∃ c, paint = some c ∧ ofHex value = .ok c := by
  rw [parse_of_beginsWithMark h]
  simp only [← ofHex_lower value]
  cases ofHex (String.ofList (lower (trim value.toList))) with
  | error e => exact iff_of_false nofun (by rintro ⟨c, -, hc⟩; cases hc)
  | ok c =>
    constructor
    · intro hpaint
      exact ⟨c, (Except.ok.inj hpaint).symm, rfl⟩
    · rintro ⟨c', rfl, hc⟩
      rw [Except.ok.inj hc]
      rfl

/-- Hexadecimal colors are accepted exactly with three, four, six or eight digits after any number of marks, and
anything else is refused with the trimmed text. Behind a mark at the beginning a paint is accepted exactly then,
and as that color. A second mark is not documented. -/
theorem hex_accepted (value : String) :
    ((∃ c, ofHex value = .ok c) ↔ IsHex value) ∧
      (¬ IsHex value → ofHex value = .error (.malformedHex (String.ofList (trim value.toList)))) ∧
      (BeginsWithMark value → ((∃ paint, parse value = .ok paint) ↔ IsHex value) ∧
        ∀ paint, parse value = .ok paint ↔ ∃ c, paint = some c ∧ ofHex value = .ok c) ∧
      (IsPlainHex value ↔ IsHex value ∧ ¬ ['#', '#'] <+: trim value.toList) := by
  refine ⟨exists_ofHex_iff value, ofHex_of_not_isHex, fun h => ⟨?_, parse_marked_eq_ok_iff h⟩,
    isPlainHex_iff value⟩
  rw [← exists_ofHex_iff]
  constructor
  · rintro ⟨paint, hpaint⟩
    obtain ⟨c, -, hc⟩ := (parse_marked_eq_ok_iff h paint).1 hpaint
    exact ⟨c, hc⟩
  · rintro ⟨c, hc⟩
    exact ⟨some c, (parse_marked_eq_ok_iff h (some c)).2 ⟨c, rfl, hc⟩⟩

theorem hex_accepted_refused :
    BeginsWithMark " #12345 " ∧ ¬ IsHex " #12345 " ∧
      ofHex " #12345 " = .error (.malformedHex "#12345") ∧ ¬ ∃ paint, parse " #12345 " = .ok paint := by
  have hbegins : BeginsWithMark " #12345 " := by
    unfold BeginsWithMark
    decide +kernel
  have hnone : digitsColor? (hexBody " #12345 ".toList) = none := by decide +kernel
  have htrim : String.ofList (trim " #12345 ".toList) = "#12345" := by decide +kernel
  have hnot : ¬ IsHex " #12345 " := by
    rw [← exists_ofHex_iff]
    rintro ⟨c, hc⟩
    rw [ofHex_eq_ok_iff, hnone] at hc
    cases hc
  refine ⟨hbegins, hnot, ?_, fun h => hnot (((hex_accepted _).2.2.1 hbegins).1.1 h)⟩
  rw [(hex_accepted _).2.1 hnot, htrim]

/-- A second mark is passed over. -/
theorem hex_with_two_marks :
    ofHex "##fff" = .ok ⟨0xFFFFFFFF⟩ ∧ parse "##fff" = .ok (some ⟨0xFFFFFFFF⟩) ∧ ¬ IsPlainHex "##fff" := by
  refine ⟨by decide +kernel, by decide +kernel, ?_⟩
  rw [isPlainHex_iff]
  exact fun h => h.2 (by decide +kernel)

end VectorIcon.Color
