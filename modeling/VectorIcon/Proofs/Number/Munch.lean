import Mathlib.Logic.Basic
import VectorIcon.Number.Numeral

/-!
# The longest numeral

`Spells w n` says which texts write which numerals. `Munches s n rest` says that among all numerals
at the start of `s` the longest one is `n`, and that `rest` follows it. The scanner finds exactly that
(`scan?_eq_some_iff`).

1. A numeral at the start of a text is always found, and the scanner stops no earlier than its end
   (`exists_scan?_of_spells`).
2. What the scanner consumes is spelled by the numeral that it gives (`spells_of_scan?`).
3. A text spells at most one numeral (`Spells.unique`), so the longest one is the scanned one.
-/

namespace VectorIcon.Number

open Text

/-- A run of digits, perhaps none. -/
def IsDigits (s : List Char) : Prop :=
  ∀ c ∈ s, isDigit c = true

/-- A sign, perhaps none, and whether it is a minus. -/
inductive IsSign : List Char → Bool → Prop
  | none : IsSign [] false
  | plus : IsSign ['+'] false
  | minus : IsSign ['-'] true

/-- Digits with at most one point: the digits before it and those after it. -/
inductive IsDecimal : List Char → List Char → List Char → Prop
  | whole {w} : w ≠ [] → IsDigits w → IsDecimal w w []
  | point {w f} : w ≠ [] → IsDigits w → IsDigits f → IsDecimal (w ++ '.' :: f) w f
  | fraction {f} : f ≠ [] → IsDigits f → IsDecimal ('.' :: f) [] f

/-- A power of ten, perhaps none. -/
inductive IsPower : List Char → Int → Prop
  | none : IsPower [] 0
  | mark {m s d negative} : m = 'e' ∨ m = 'E' → IsSign s negative → d ≠ [] → IsDigits d →
      IsPower (m :: (s ++ d)) (if negative then -(decimalNumber d : Int) else decimalNumber d)

/-- The text writes the numeral and nothing else. -/
inductive Spells : List Char → Numeral → Prop
  | mk {s d p negative w f e} : IsSign s negative → IsDecimal d w f → IsPower p e →
      Spells (s ++ (d ++ p)) ⟨negative, w, f, e⟩

/-- The longest numeral at the start of a text, and the text after it. -/
def Munches (s : List Char) (n : Numeral) (rest : List Char) : Prop :=
  ∃ w, s = w ++ rest ∧ Spells w n ∧ ∀ w' n', w' <+: s → Spells w' n' → w'.length ≤ w.length

/-! ## Runs of digits -/

theorem dropWhile_digits_append {d : List Char} (h : IsDigits d) (s : List Char) :
    (d ++ s).dropWhile isDigit = s.dropWhile isDigit :=
  List.dropWhile_append_of_pos h

theorem takeWhile_digits_append {d : List Char} (h : IsDigits d) (s : List Char) :
    (d ++ s).takeWhile isDigit = d ++ s.takeWhile isDigit :=
  List.takeWhile_append_of_pos h

theorem isDigits_takeWhile (s : List Char) : IsDigits (s.takeWhile isDigit) := by
  intro c hc
  exact List.all_eq_true.1 List.all_takeWhile c hc

theorem isDigits_cons {c : Char} {d : List Char} :
    IsDigits (c :: d) ↔ isDigit c = true ∧ IsDigits d := by
  unfold IsDigits; simp

/-- The marks of a numeral are no digits. -/
theorem isDigit_point : isDigit '.' = false := by decide

theorem isDigit_mark {m : Char} (h : m = 'e' ∨ m = 'E') : isDigit m = false := by
  rcases h with rfl | rfl <;> decide

theorem scanSign_of_isDigit {c : Char} (h : isDigit c = true) (s : List Char) :
    scanSign (c :: s) = (false, c :: s) := by
  unfold scanSign
  split
  · next heq => cases heq; exact absurd h (by decide)
  · next heq => cases heq; exact absurd h (by decide)
  · rfl

theorem scanSign_point (s : List Char) : scanSign ('.' :: s) = (false, '.' :: s) := rfl

/-- A sign is taken off when no second one follows it. -/
theorem scanSign_append {s t : List Char} {negative : Bool} (h : IsSign s negative)
    (ht : scanSign t = (false, t)) : scanSign (s ++ t) = (negative, t) := by
  cases h with
  | none => exact ht
  | plus => rfl
  | minus => rfl

theorem scanSign_digits_append {d : List Char} (hne : d ≠ []) (h : IsDigits d) (t : List Char) :
    scanSign (d ++ t) = (false, d ++ t) := by
  cases d with
  | nil => exact absurd rfl hne
  | cons c d => exact scanSign_of_isDigit (isDigits_cons.1 h).1 _

theorem scanSign_decimal_append {d w f : List Char} (h : IsDecimal d w f) (t : List Char) :
    scanSign (d ++ t) = (false, d ++ t) := by
  cases h with
  | whole hne hw => exact scanSign_digits_append hne hw t
  | point hne hw _ => rw [List.append_assoc]; exact scanSign_digits_append hne hw _
  | fraction _ _ => exact scanSign_point _

/-! ## Powers of ten -/

/-- The mark of a power of ten and a digit after it make the scanner read on to the last digit. -/
theorem scanExponent_mark {m : Char} {s d : List Char} {negative : Bool} (hm : m = 'e' ∨ m = 'E')
    (hs : IsSign s negative) (hne : d ≠ []) (hd : IsDigits d) (t : List Char) :
    scanExponent (m :: (s ++ (d ++ t))) =
      (if negative then -(decimalNumber (d ++ t.takeWhile isDigit) : Int)
        else decimalNumber (d ++ t.takeWhile isDigit), t.dropWhile isDigit) := by
  unfold scanExponent
  simp only
  rw [if_pos hm, scanSign_append hs (scanSign_digits_append hne hd t)]
  unfold scanDigits
  rw [takeWhile_digits_append hd, dropWhile_digits_append hd]
  have : (d ++ t.takeWhile isDigit).isEmpty = false := by
    rw [List.isEmpty_eq_false_iff]
    exact List.append_ne_nil_of_left_ne_nil hne _
  simp only [this, Bool.false_eq_true, if_false]

theorem dropWhile_mark {m : Char} (hm : m = 'e' ∨ m = 'E') (s : List Char) :
    (m :: s).dropWhile isDigit = m :: s := by
  rw [List.dropWhile_cons, isDigit_mark hm]; rfl

theorem scanFraction_mark {m : Char} (hm : m = 'e' ∨ m = 'E') (s : List Char) :
    scanFraction (m :: s) = ([], m :: s) := by
  unfold scanFraction
  split
  · next heq => cases heq; rcases hm with h | h <;> cases h
  · rfl

theorem takeWhile_power {p : List Char} {e : Int} (h : IsPower p e) : p.takeWhile isDigit = [] := by
  cases h with
  | none => rfl
  | mark hm _ _ _ => rw [List.takeWhile_cons, isDigit_mark hm]; rfl

theorem dropWhile_power {p : List Char} {e : Int} (h : IsPower p e) : p.dropWhile isDigit = p := by
  cases h with
  | none => rfl
  | mark hm _ _ _ => exact dropWhile_mark hm _

theorem scanFraction_power {p : List Char} {e : Int} (h : IsPower p e) :
    scanFraction p = ([], p) := by
  cases h with
  | none => rfl
  | mark hm _ _ _ => exact scanFraction_mark hm _

theorem scanExponent_power {p : List Char} {e : Int} (h : IsPower p e) :
    scanExponent p = (e, []) := by
  cases h with
  | none => rfl
  | @mark m s d negative hm hs hne hd =>
    have := scanExponent_mark hm hs hne hd []
    simpa only [List.append_nil, List.takeWhile_nil, List.dropWhile_nil] using this

theorem length_scanExponent_append_le {p : List Char} {e : Int} (h : IsPower p e) (t : List Char) :
    (scanExponent ((p ++ t).dropWhile isDigit)).2.length ≤ t.length := by
  cases h with
  | none => exact Nat.le_trans (length_scanExponent_le _) (length_dropWhile_le _ _)
  | mark hm hs hne hd =>
    rw [List.cons_append, dropWhile_mark hm, List.append_assoc, scanExponent_mark hm hs hne hd]
    exact length_dropWhile_le _ _

theorem length_scanExponent_scanFraction_le {p : List Char} {e : Int} (h : IsPower p e)
    (t : List Char) :
    (scanExponent (scanFraction ((p ++ t).dropWhile isDigit)).2).2.length ≤ t.length := by
  cases h with
  | none =>
    calc _ ≤ (scanFraction (t.dropWhile isDigit)).2.length := length_scanExponent_le _
      _ ≤ (t.dropWhile isDigit).length := length_scanFraction_le _
      _ ≤ t.length := length_dropWhile_le _ _
  | mark hm hs hne hd =>
    rw [List.cons_append, dropWhile_mark hm, scanFraction_mark hm]
    simp only
    rw [List.append_assoc, scanExponent_mark hm hs hne hd]
    exact length_dropWhile_le _ _

/-! ## The cuts of the scanner -/

/-- The digits before the point. -/
def wholeAt (s : List Char) : List Char :=
  (scanSign s).2.takeWhile isDigit

/-- The digits after the point, and the text after them. -/
def fractionAt (s : List Char) : List Char × List Char :=
  scanFraction ((scanSign s).2.dropWhile isDigit)

theorem scan?_eq_some_iff_cuts {s rest : List Char} {n : Numeral} :
    scan? s = some (n, rest) ↔
      (wholeAt s ≠ [] ∨ (fractionAt s).1 ≠ []) ∧
        n = ⟨(scanSign s).1, wholeAt s, (fractionAt s).1, (scanExponent (fractionAt s).2).1⟩ ∧
        rest = (scanExponent (fractionAt s).2).2 := by
  have hcut : scan? s =
      if (wholeAt s).isEmpty && (fractionAt s).1.isEmpty then none
      else some (⟨(scanSign s).1, wholeAt s, (fractionAt s).1, (scanExponent (fractionAt s).2).1⟩,
        (scanExponent (fractionAt s).2).2) := rfl
  have hempty : ((wholeAt s).isEmpty && (fractionAt s).1.isEmpty) = true ↔
      ¬(wholeAt s ≠ [] ∨ (fractionAt s).1 ≠ []) := by
    rw [Bool.and_eq_true, List.isEmpty_iff, List.isEmpty_iff, not_or, not_not, not_not]
  rw [hcut]
  by_cases h : wholeAt s ≠ [] ∨ (fractionAt s).1 ≠ []
  · rw [if_neg (fun hn => hempty.1 hn h)]
    constructor
    · intro heq
      cases heq
      exact ⟨h, rfl, rfl⟩
    · rintro ⟨-, rfl, rfl⟩
      rfl
  · rw [if_pos (hempty.2 h)]
    constructor
    · intro heq
      cases heq
    · rintro ⟨hne, -⟩
      exact absurd hne h

/-- Where a numeral stands at the start of a text, some digits are read, and the scanner stops no
earlier than at its end. -/
theorem cuts_of_spells {w : List Char} {n : Numeral} (h : Spells w n) (t : List Char) :
    (wholeAt (w ++ t) ≠ [] ∨ (fractionAt (w ++ t)).1 ≠ []) ∧
      (scanExponent (fractionAt (w ++ t)).2).2.length ≤ t.length := by
  obtain @⟨s, d, p, negative, w, f, e, hs, hd, hp⟩ := h
  have hsign : scanSign (s ++ (d ++ p) ++ t) = (negative, d ++ (p ++ t)) := by
    rw [List.append_assoc, List.append_assoc]
    exact scanSign_append hs (scanSign_decimal_append hd _)
  unfold wholeAt fractionAt
  rw [hsign]
  cases hd with
  | whole hne hw =>
    refine ⟨Or.inl ?_, ?_⟩
    · simp only [takeWhile_digits_append hw]
      exact List.append_ne_nil_of_left_ne_nil hne _
    · simp only [dropWhile_digits_append hw]
      exact length_scanExponent_scanFraction_le hp t
  | @point w f hne hw hf =>
    have hdrop : (w ++ '.' :: f ++ (p ++ t)).dropWhile isDigit = '.' :: (f ++ (p ++ t)) := by
      rw [List.append_assoc, dropWhile_digits_append hw, List.cons_append, List.dropWhile_cons,
        isDigit_point]
      rfl
    refine ⟨Or.inl ?_, ?_⟩
    · simp only [List.append_assoc, takeWhile_digits_append hw]
      exact List.append_ne_nil_of_left_ne_nil hne _
    · simp only [hdrop, scanFraction, scanDigits, dropWhile_digits_append hf]
      exact length_scanExponent_append_le hp t
  | @fraction f hne hf =>
    have hdrop : ('.' :: f ++ (p ++ t)).dropWhile isDigit = '.' :: (f ++ (p ++ t)) := by
      rw [List.cons_append, List.dropWhile_cons, isDigit_point]; rfl
    refine ⟨Or.inr ?_, ?_⟩
    · simp only [hdrop, scanFraction, scanDigits, takeWhile_digits_append hf]
      exact List.append_ne_nil_of_left_ne_nil hne _
    · simp only [hdrop, scanFraction, scanDigits, dropWhile_digits_append hf]
      exact length_scanExponent_append_le hp t

theorem exists_scan?_of_spells {w : List Char} {n : Numeral} (h : Spells w n) (t : List Char) :
    ∃ n' rest, scan? (w ++ t) = some (n', rest) ∧ rest.length ≤ t.length := by
  obtain ⟨hne, hle⟩ := cuts_of_spells h t
  exact ⟨_, _, scan?_eq_some_iff_cuts.2 ⟨hne, rfl, rfl⟩, hle⟩

/-- A text that is one numeral is scanned to its end. -/
theorem scan?_of_spells {w : List Char} {n : Numeral} (h : Spells w n) :
    scan? w = some (n, []) := by
  obtain @⟨s, d, p, negative, w, f, e, hs, hd, hp⟩ := h
  have hsign : scanSign (s ++ (d ++ p)) = (negative, d ++ p) :=
    scanSign_append hs (scanSign_decimal_append hd _)
  rw [scan?_eq_some_iff_cuts]
  unfold wholeAt fractionAt
  rw [hsign]
  cases hd with
  | whole hne hw =>
    have htake : (d ++ p).takeWhile isDigit = d := by
      rw [takeWhile_digits_append hw, takeWhile_power hp, List.append_nil]
    have hdrop : (d ++ p).dropWhile isDigit = p := by
      rw [dropWhile_digits_append hw, dropWhile_power hp]
    simp only [htake, hdrop, scanFraction_power hp, scanExponent_power hp]
    exact ⟨Or.inl hne, trivial, trivial⟩
  | @point w f hne hw hf =>
    have htake : (w ++ '.' :: f ++ p).takeWhile isDigit = w := by
      rw [List.append_assoc, takeWhile_digits_append hw, List.cons_append, List.takeWhile_cons,
        isDigit_point]
      simp
    have hdrop : (w ++ '.' :: f ++ p).dropWhile isDigit = '.' :: (f ++ p) := by
      rw [List.append_assoc, dropWhile_digits_append hw, List.cons_append, List.dropWhile_cons,
        isDigit_point]
      rfl
    simp only [htake, hdrop, scanFraction, scanDigits, takeWhile_digits_append hf,
      dropWhile_digits_append hf, takeWhile_power hp, dropWhile_power hp, scanExponent_power hp,
      List.append_nil]
    exact ⟨Or.inl hne, trivial, trivial⟩
  | @fraction f hne hf =>
    have htake : ('.' :: f ++ p).takeWhile isDigit = [] := by
      rw [List.cons_append, List.takeWhile_cons, isDigit_point]; rfl
    have hdrop : ('.' :: f ++ p).dropWhile isDigit = '.' :: (f ++ p) := by
      rw [List.cons_append, List.dropWhile_cons, isDigit_point]; rfl
    simp only [htake, hdrop, scanFraction, scanDigits, takeWhile_digits_append hf,
      dropWhile_digits_append hf, takeWhile_power hp, dropWhile_power hp, scanExponent_power hp,
      List.append_nil]
    exact ⟨Or.inr hne, trivial, trivial⟩

theorem Spells.unique {w : List Char} {n n' : Numeral} (h : Spells w n) (h' : Spells w n') :
    n = n' := by
  have heq := scan?_of_spells h
  rw [scan?_of_spells h'] at heq
  cases heq
  rfl

/-! ## What is consumed is spelled -/

theorem exists_sign (s : List Char) :
    ∃ w, s = w ++ (scanSign s).2 ∧ IsSign w (scanSign s).1 := by
  unfold scanSign
  split
  · exact ⟨['-'], rfl, .minus⟩
  · exact ⟨['+'], rfl, .plus⟩
  · exact ⟨[], rfl, .none⟩

theorem exists_power (s : List Char) :
    ∃ p, s = p ++ (scanExponent s).2 ∧ IsPower p (scanExponent s).1 := by
  unfold scanExponent
  split
  · next c rest =>
    by_cases hc : c = 'e' ∨ c = 'E'
    · rw [if_pos hc]
      obtain ⟨w, hw, hsign⟩ := exists_sign rest
      simp only [scanDigits]
      by_cases hd : (scanSign rest).2.takeWhile isDigit = []
      · simp only [hd, List.isEmpty_nil, if_true]
        exact ⟨[], rfl, .none⟩
      · simp only [List.isEmpty_eq_false_iff.2 hd, Bool.false_eq_true, if_false]
        refine ⟨c :: (w ++ (scanSign rest).2.takeWhile isDigit), ?_,
          .mark hc hsign hd (isDigits_takeWhile _)⟩
        rw [List.cons_append, List.append_assoc, List.takeWhile_append_dropWhile, ← hw]
    · rw [if_neg hc]
      exact ⟨[], rfl, .none⟩
  · exact ⟨[], rfl, .none⟩

theorem exists_decimal (s : List Char)
    (h : s.takeWhile isDigit ≠ [] ∨ (scanFraction (s.dropWhile isDigit)).1 ≠ []) :
    ∃ d, s = d ++ (scanFraction (s.dropWhile isDigit)).2 ∧
      IsDecimal d (s.takeWhile isDigit) (scanFraction (s.dropWhile isDigit)).1 := by
  have hs := (List.takeWhile_append_dropWhile (p := isDigit) (l := s)).symm
  have hw := isDigits_takeWhile s
  generalize s.takeWhile isDigit = w at h hs hw ⊢
  generalize s.dropWhile isDigit = r at h hs ⊢
  subst hs
  unfold scanFraction at h ⊢
  split at h
  · next r =>
    simp only [scanDigits] at h ⊢
    have hr := (List.takeWhile_append_dropWhile (p := isDigit) (l := r)).symm
    have hf := isDigits_takeWhile r
    by_cases hne : w = []
    · subst hne
      refine ⟨'.' :: r.takeWhile isDigit, ?_, .fraction (h.resolve_left fun hn => hn rfl) hf⟩
      rw [List.nil_append, List.cons_append, ← hr]
    · refine ⟨w ++ '.' :: r.takeWhile isDigit, ?_, .point hne hw hf⟩
      rw [List.append_assoc, List.cons_append, ← hr]
  · exact ⟨w, rfl, .whole (h.resolve_right fun hn => hn rfl) hw⟩

theorem spells_of_scan? {s rest : List Char} {n : Numeral} (h : scan? s = some (n, rest)) :
    ∃ w, s = w ++ rest ∧ Spells w n := by
  obtain ⟨hne, rfl, rfl⟩ := scan?_eq_some_iff_cuts.1 h
  obtain ⟨w, hw, hsign⟩ := exists_sign s
  obtain ⟨d, hd, hdecimal⟩ := exists_decimal (scanSign s).2 hne
  obtain ⟨p, hp, hpower⟩ := exists_power (fractionAt s).2
  refine ⟨w ++ (d ++ p), ?_, .mk hsign hdecimal hpower⟩
  rw [List.append_assoc, List.append_assoc, ← hp]
  unfold fractionAt
  rw [← hd, ← hw]

/-! ## The longest numeral -/

/-- **Maximal munch.** The scanner gives the longest numeral at the start of a text. -/
theorem scan?_eq_some_iff {s rest : List Char} {n : Numeral} :
    scan? s = some (n, rest) ↔ Munches s n rest := by
  constructor
  · intro h
    obtain ⟨w, rfl, hw⟩ := spells_of_scan? h
    refine ⟨w, rfl, hw, ?_⟩
    rintro w' n' ⟨t, ht⟩ hw'
    obtain ⟨n'', rest', h', hle⟩ := exists_scan?_of_spells hw' t
    rw [ht, h] at h'
    cases h'
    have := congrArg List.length ht
    simp only [List.length_append] at this
    omega
  · rintro ⟨w, rfl, hw, hmax⟩
    obtain ⟨n', rest', h, hle⟩ := exists_scan?_of_spells hw rest
    obtain ⟨w', hw', hspells⟩ := spells_of_scan? h
    have hlen := hmax w' n' ⟨rest', hw'.symm⟩ hspells
    have htotal := congrArg List.length hw'
    simp only [List.length_append] at htotal
    obtain ⟨rfl, rfl⟩ := List.append_inj hw' (by omega)
    rw [h, hw.unique hspells]

example : scan? "1.5.5".toList = some (⟨false, ['1'], ['5'], 0⟩, ['.', '5']) := by decide +kernel

example : scan? "2em".toList = some (⟨false, ['2'], [], 0⟩, ['e', 'm']) := by decide +kernel

end VectorIcon.Number
