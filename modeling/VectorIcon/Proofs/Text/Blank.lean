import Mathlib.Data.List.TakeWhile
import VectorIcon.Text.Blank

/-!
# Blanks around texts, and letter case

A text is blanks, its trimmed text and blanks again (`exists_blanks`), and a text that neither begins nor
ends with a blank is what is left of it between any blanks (`trim_between`). Small letters instead of
capitals change nothing about blanks (`trim_lower`).
-/

namespace VectorIcon.Text

variable {c : Char} {a b s : List Char}

/-! ## Letters and digits -/

theorem isAlphanumeric_iff : isAlphanumeric c = true ↔
    (97 ≤ c.toNat ∧ c.toNat ≤ 122) ∨ (65 ≤ c.toNat ∧ c.toNat ≤ 90) ∨
      (48 ≤ c.toNat ∧ c.toNat ≤ 57) := by
  have hle {a b : Char} : a ≤ b ↔ a.toNat ≤ b.toNat := Iff.rfl
  simp only [isAlphanumeric, isLetter, isDigit, Bool.or_eq_true, Bool.and_eq_true,
    decide_eq_true_eq, hle, or_assoc]
  rfl

theorem isLetter_iff : isLetter c = true ↔
    (97 ≤ c.toNat ∧ c.toNat ≤ 122) ∨ (65 ≤ c.toNat ∧ c.toNat ≤ 90) := by
  simp only [isLetter, Bool.or_eq_true, Bool.and_eq_true, decide_eq_true_eq]
  exact Iff.rfl

theorem isLetter_of_isDigit (h : isDigit c = true) : isLetter c = false := by
  rw [isDigit, Bool.and_eq_true, decide_eq_true_eq, decide_eq_true_eq] at h
  have hlow : 48 ≤ c.toNat := h.1
  have hhigh : c.toNat ≤ 57 := h.2
  rw [← Bool.not_eq_true, isLetter_iff]
  omega

theorem toNat_toLower (c : Char) :
    c.toLower.toNat = if 65 ≤ c.toNat ∧ c.toNat ≤ 90 then c.toNat + 32 else c.toNat := by
  unfold Char.toLower
  split
  · next h =>
    have hupper : 65 ≤ c.toNat ∧ c.toNat ≤ 90 := h
    have hsum : (c.toNat + 32) % 2 ^ 32 = c.toNat + 32 := by omega
    rw [if_pos hupper, ← hsum]
    exact UInt32.toNat_add ..
  · next h => exact (if_neg h).symm

theorem toNat_toUpper (c : Char) :
    c.toUpper.toNat = if 97 ≤ c.toNat ∧ c.toNat ≤ 122 then c.toNat - 32 else c.toNat := by
  unfold Char.toUpper
  split
  · next h =>
    have hlower : 97 ≤ c.toNat ∧ c.toNat ≤ 122 := h
    have hsum : (c.toNat + (2 ^ 32 - 32)) % 2 ^ 32 = c.toNat - 32 := by omega
    rw [if_pos hlower, ← hsum]
    exact UInt32.toNat_add ..
  · next h => exact (if_neg h).symm

theorem toLower_toLower (c : Char) : c.toLower.toLower = c.toLower := by
  rw [← Char.toNat_inj, toNat_toLower, toNat_toLower]
  split
  · rw [if_neg (by omega)]
  · rfl

theorem lower_lower (s : List Char) : lower (lower s) = lower s := by
  rw [lower, lower, List.map_map]
  exact List.map_congr_left fun c _ => toLower_toLower c

/-- What is no letter has no letter case. -/
theorem toLower_of_isLetter (h : isLetter c = false) : c.toLower = c := by
  rw [← Bool.not_eq_true, isLetter_iff] at h
  rw [← Char.toNat_inj, toNat_toLower, if_neg (by omega)]

theorem toLower_eq_iff {d : Char} (h : isLetter c = false) : d.toLower = c ↔ d = c := by
  constructor
  · rintro rfl
    have hletter : isLetter d = false := by
      rw [← Bool.not_eq_true, isLetter_iff, toNat_toLower] at h
      rw [← Bool.not_eq_true, isLetter_iff]
      intro hd
      split at h <;> omega
    exact (toLower_of_isLetter hletter).symm
  · rintro rfl
    exact toLower_of_isLetter h

/-- Small letters do not hide a character that is no letter. -/
theorem mem_lower_iff (h : isLetter c = false) : c ∈ lower s ↔ c ∈ s := by
  rw [lower, List.mem_map]
  constructor
  · rintro ⟨d, hd, hlower⟩
    rwa [(toLower_eq_iff h).1 hlower] at hd
  · exact fun hc => ⟨c, hc, toLower_of_isLetter h⟩

/-! ## Blanks -/

/-- A run of blanks, perhaps none. -/
def IsBlanks (s : List Char) : Prop :=
  ∀ c ∈ s, isBlank c = true

instance (s : List Char) : Decidable (IsBlanks s) :=
  List.decidableBAll (fun c => isBlank c = true) s

/-- No blank stands at either end. -/
structure IsTrimmed (s : List Char) : Prop where
  head : ∀ c ∈ s.head?, isBlank c = false
  last : ∀ c ∈ s.getLast?, isBlank c = false

theorem dropWhile_isBlank (h : ∀ c ∈ s.head?, isBlank c = false) : s.dropWhile isBlank = s := by
  cases s with
  | nil => rfl
  | cons c rest =>
    refine List.dropWhile_cons_of_neg ?_
    rw [h c rfl]
    exact Bool.false_ne_true

theorem head?_dropWhile_isBlank (s : List Char) : ∀ c ∈ (s.dropWhile isBlank).head?, isBlank c = false := by
  intro c hc
  have hfirst := List.head?_dropWhile_not isBlank s
  rwa [Option.mem_def.1 hc] at hfirst

theorem exists_isBlanks_append (s : List Char) : ∃ a, IsBlanks a ∧ s = a ++ s.dropWhile isBlank :=
  ⟨s.takeWhile isBlank, fun _ hc => List.all_eq_true.1 List.all_takeWhile _ hc,
    List.takeWhile_append_dropWhile.symm⟩

theorem exists_append_isBlanks (s : List Char) : ∃ b, IsBlanks b ∧ s = dropEndWhile isBlank s ++ b := by
  obtain ⟨a, ha, hs⟩ := exists_isBlanks_append s.reverse
  refine ⟨a.reverse, fun c hc => ha c (List.mem_reverse.1 hc), ?_⟩
  rw [dropEndWhile, ← List.reverse_append, ← hs, List.reverse_reverse]

/-- A text is its trimmed text between blanks. -/
theorem exists_blanks (s : List Char) : ∃ a b, IsBlanks a ∧ IsBlanks b ∧ s = a ++ (trim s ++ b) := by
  obtain ⟨a, ha, hs⟩ := exists_isBlanks_append s
  obtain ⟨b, hb, hrest⟩ := exists_append_isBlanks (s.dropWhile isBlank)
  exact ⟨a, b, ha, hb, by rw [trim, trimBy, ← hrest, ← hs]⟩

theorem isTrimmed_trim (s : List Char) : IsTrimmed (trim s) := by
  have hlast : ∀ c ∈ (trim s).getLast?, isBlank c = false := by
    intro c hc
    rw [trim, trimBy, dropEndWhile, List.getLast?_reverse] at hc
    exact head?_dropWhile_isBlank _ c hc
  refine ⟨fun c hc => ?_, hlast⟩
  obtain ⟨b, -, hs⟩ := exists_append_isBlanks (s.dropWhile isBlank)
  have hfirst : (dropEndWhile isBlank (s.dropWhile isBlank)).head? = some c := hc
  refine head?_dropWhile_isBlank s c ?_
  rw [hs, List.head?_append, hfirst]
  rfl

/-- A trimmed text is what is left of it between blanks. -/
theorem trim_between (ha : IsBlanks a) (hb : IsBlanks b) (hs : IsTrimmed s) : trim (a ++ (s ++ b)) = s := by
  have hend : (b.reverse ++ s.reverse).dropWhile isBlank = s.reverse := by
    rw [List.dropWhile_append_of_pos fun c hc => hb c (List.mem_reverse.1 hc)]
    exact dropWhile_isBlank fun c hc => hs.last c (by rwa [List.head?_reverse] at hc)
  rw [trim, trimBy, List.dropWhile_append_of_pos ha]
  cases s with
  | nil =>
    rw [List.nil_append, List.dropWhile_eq_nil_iff.2 hb]
    rfl
  | cons c rest =>
    rw [dropWhile_isBlank (by simpa using hs.head), dropEndWhile, List.reverse_append, hend,
      List.reverse_reverse]

theorem isTrimmed_of_forall (h : ∀ c ∈ s, isBlank c = false) : IsTrimmed s :=
  ⟨fun c hc => h c (List.mem_of_mem_head? hc), fun c hc => h c (List.mem_of_mem_getLast? hc)⟩

theorem isBlanks_nil : IsBlanks [] :=
  fun _ hc => absurd hc List.not_mem_nil

theorem trim_of_isTrimmed (h : IsTrimmed s) : trim s = s := by
  have htrim := trim_between isBlanks_nil isBlanks_nil h
  rwa [List.nil_append, List.append_nil] at htrim

theorem trim_of_isBlanks (h : IsBlanks s) : trim s = [] := by
  have htrim := trim_between h isBlanks_nil (isTrimmed_of_forall fun _ hc => absurd hc List.not_mem_nil)
  rwa [List.nil_append, List.append_nil] at htrim

/-! ## Blanks in small letters -/

theorem isBlank_toLower (c : Char) : isBlank c.toLower = isBlank c := by
  by_cases h : isLetter c = true
  · have hblank : ∀ d, (65 ≤ Char.toNat d ∧ d.toNat ≤ 122) → isBlank d = false := by
      intro d hd
      unfold isBlank
      simp
      omega
    rw [isLetter_iff] at h
    rw [hblank c (by omega), hblank c.toLower (by rw [toNat_toLower]; split <;> omega)]
  · rw [toLower_of_isLetter (Bool.not_eq_true _ ▸ h)]

theorem isBlanks_lower (h : IsBlanks s) : IsBlanks (lower s) := by
  intro c hc
  obtain ⟨d, hd, rfl⟩ := List.mem_map.1 hc
  rw [isBlank_toLower, h d hd]

theorem isTrimmed_lower (h : IsTrimmed s) : IsTrimmed (lower s) := by
  have hends {o : Option Char} (ho : ∀ c ∈ o, isBlank c = false) :
      ∀ c ∈ o.map Char.toLower, isBlank c = false := by
    intro c hc
    obtain ⟨d, hd, rfl⟩ := Option.map_eq_some_iff.1 hc
    rw [isBlank_toLower, ho d hd]
  exact ⟨by rw [lower, List.head?_map]; exact hends h.head,
    by rw [lower, List.getLast?_map]; exact hends h.last⟩

theorem lower_append (s t : List Char) : lower (s ++ t) = lower s ++ lower t :=
  List.map_append

theorem trim_lower (s : List Char) : trim (lower s) = lower (trim s) := by
  obtain ⟨a, b, ha, hb, hs⟩ := exists_blanks s
  have htrim := trim_between (isBlanks_lower ha) (isBlanks_lower hb) (isTrimmed_lower (isTrimmed_trim s))
  rwa [← lower_append, ← lower_append, ← hs] at htrim

end VectorIcon.Text
