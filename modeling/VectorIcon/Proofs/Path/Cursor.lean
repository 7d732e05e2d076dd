import VectorIcon.Proofs.Path.Bytes

/-!
# Steps of the cursor

The cursor moves over ASCII characters only. So when the rest of a text begins at it, all before is ASCII, and its
place is one of characters: this is the invariant (`Stands`), and no step needs to know more of the text before.

`Yields` compares a step of the cursor with a reading of the rest. Steps are put together (`Yields.bind`), and a loop
is followed by its turns as long as they leave a shorter rest (`yields_loop`): this is why no loop is ever stuck.
With that numbers and flags are read as `scanNumber` and `scanFlag` say. The cursor goes back in one place, where a
number has no digits; it was there before, so the rest begins there again (`IsSound.moved`).
-/

namespace VectorIcon.Path.Cursor

open Text Number

variable {σ α β : Type} {data : String} {c c' : Cursor} {w rest : List Char}

/-! ## Standing at the rest of a text -/

/-- The cursor was at places of characters only, and all that was taken for a number is one. -/
structure IsSound (data : String) (c : Cursor) : Prop where
  visited : ∀ pos ∈ c.visited, IsPlace data pos
  numerals : ∀ text ∈ c.numerals, ∃ n, Spells text.toList n

/-- The cursor is sound, and the rest of the text begins at it, with nothing but ASCII characters before it. -/
structure Stands (data : String) (c : Cursor) (rest : List Char) : Prop extends IsSound data c where
  split : ∃ before, IsAscii before ∧ data.toList = before ++ rest ∧ c.pos = before.length

theorem stands_start (data : String) : Stands data {} data.toList where
  visited pos hpos := by
    rw [List.mem_singleton.1 hpos]
    exact isPlace_of_split (List.nil_append _).symm nofun
  numerals := nofun
  split := ⟨[], nofun, rfl, rfl⟩

theorem Stands.pos_add (h : Stands data c rest) : c.pos + rest.length = data.toList.length := by
  obtain ⟨before, -, hsplit, hpos⟩ := h.split
  rw [hsplit, hpos, List.length_append]

theorem Stands.isPlace (h : Stands data c rest) : IsPlace data c.pos := by
  obtain ⟨before, hbefore, hsplit, hpos⟩ := h.split
  exact hpos ▸ isPlace_of_split hsplit hbefore

/-- What is said of the cursor can be said of each place over ASCII characters. -/
theorem Stands.ahead (h : Stands data c (w ++ rest)) (hw : IsAscii w) :
    ∃ before, IsAscii before ∧ data.toList = before ++ rest ∧ c.pos + w.length = before.length := by
  obtain ⟨before, hbefore, hsplit, hpos⟩ := h.split
  exact ⟨before ++ w, hbefore.append hw, by rw [hsplit, List.append_assoc], by rw [hpos, List.length_append]⟩

theorem Stands.excerptAt (h : Stands data c rest) : excerptAt data c.pos = excerpt rest := by
  obtain ⟨before, hbefore, hsplit, hpos⟩ := h.split
  exact hpos ▸ excerptAt_of_split hsplit hbefore

theorem Stands.textBetween? (h : Stands data c (w ++ rest)) (hw : IsAscii w) (h' : Stands data c' rest) :
    textBetween? data c.pos c'.pos = some (String.ofList w) := by
  have hplaces := h.pos_add.trans h'.pos_add.symm
  obtain ⟨before, hbefore, hsplit, hpos⟩ := h.split
  rw [List.length_append] at hplaces
  have hfinish : c'.pos = before.length + w.length := by omega
  rw [hfinish, hpos]
  exact textBetween?_of_split hsplit hbefore hw

/-- A sound cursor stands where it is moved to. -/
theorem IsSound.moved (h : IsSound data c') (hc : Stands data c rest) :
    Stands data { c' with pos := c.pos, earlier := c'.visited } rest where
  visited := List.forall_mem_cons.2 ⟨hc.isPlace, h.visited⟩
  numerals := h.numerals
  split := hc.split

/-! ## Readings that follow a text -/

/-- A step of the cursor has the result of a reading of the rest, after which the cursor stands where that reading
leaves off. An error is reported, and the cursor is sound. -/
inductive Yields (data : String) : EStateM.Result Stop Cursor α → Except Error (α × List Char) → Prop
  | ok {a c rest} : Stands data c rest → Yields data (.ok a c) (.ok (a, rest))
  | error {e c} : IsSound data c → Yields data (.error (.reported e) c) (.error e)

variable {a : α} {x : Except Error (α × List Char)} {y : Except Error (β × List Char)} {m : Reading α}

theorem Yields.bind {k : α → Reading β} {f : α × List Char → Except Error (β × List Char)}
    (h : Yields data (m c) x)
    (hk : ∀ a c' rest, x = .ok (a, rest) → Stands data c' rest → Yields data (k a c') (f (a, rest))) :
    Yields data ((m >>= k) c) (x >>= f) := by
  show Yields data (EStateM.bind m k c) (x >>= f)
  unfold EStateM.bind
  generalize m c = r at h
  cases h with
  | ok hstands => exact hk _ _ _ rfl hstands
  | error hsound => exact .error hsound

/-- A step that succeeds, and what comes after it. -/
theorem Yields.next {k : α → Reading β} (h : Yields data (m c) (.ok (a, rest)))
    (hk : ∀ c', Stands data c' rest → Yields data (k a c') y) : Yields data ((m >>= k) c) y :=
  h.bind (f := fun _ => y) fun _ c' _ heq hstands => by
    cases heq
    exact hk c' hstands

theorem yields_pure (h : Stands data c rest) (a : α) : Yields data ((pure a : Reading α) c) (.ok (a, rest)) :=
  .ok h

/-- What is made of the result of a step. -/
theorem Yields.map (h : Yields data (m c) x) (g : α → β) :
    Yields data ((m >>= fun a => pure (g a)) c) (x.map fun p => (g p.1, p.2)) := by
  have hmap : x.map (fun p => (g p.1, p.2)) = x >>= fun p => .ok (g p.1, p.2) := by cases x <;> rfl
  rw [hmap]
  exact h.bind fun _ _ _ _ h => yields_pure h _

theorem yields_place (h : Stands data c rest) : Yields data (place c) (.ok (c.pos, rest)) :=
  .ok h

theorem yields_moveTo (h : IsSound data c') (hc : Stands data c rest) :
    Yields data (moveTo c.pos c') (.ok ((), rest)) :=
  .ok (h.moved hc)

theorem yields_peekAt (h : Stands data c (w ++ rest)) (hw : IsAscii w) :
    Yields data (peekAt data w.length c) (.ok (rest.head?.map lead, w ++ rest)) := by
  obtain ⟨before, hbefore, hsplit, hpos⟩ := h.ahead hw
  have hbyte := getElem?_of_split hsplit hbefore
  rw [← hpos] at hbyte
  exact hbyte ▸ .ok h

theorem yields_peek (h : Stands data c rest) : Yields data (peek data c) (.ok (rest.head?.map lead, rest)) :=
  yields_peekAt (w := []) h nofun

theorem yields_advance (h : Stands data c (w ++ rest)) (hw : IsAscii w) :
    Yields data (advance w.length c) (.ok ((), rest)) := by
  have hahead := h.ahead hw
  obtain ⟨before, hbefore, hsplit, hpos⟩ := id hahead
  have hplace : IsPlace data (c.pos + w.length) := hpos ▸ isPlace_of_split hsplit hbefore
  exact .ok ⟨⟨List.forall_mem_cons.2 ⟨hplace, h.visited⟩, h.numerals⟩, hahead⟩

theorem yields_report {fault : Fault} (h : IsSound data c') (hc : Stands data c rest) :
    Yields data ((report data fault c.pos : Reading α) c') (.error (.malformed fault (excerpt rest))) := by
  rw [← hc.excerptAt]
  exact .error h

/-- A fault at the cursor. -/
theorem yields_report_here {fault : Fault} (h : Stands data c rest) :
    Yields data ((place >>= report data fault : Reading α) c) (.error (.malformed fault (excerpt rest))) :=
  (yields_place h).next fun _ h' => yields_report h'.toIsSound h

/-- Over one character. -/
theorem yields_advance_one {d : Char} (hd : d.val ≤ 127) (h : Stands data c (d :: rest)) :
    Yields data (advance 1 c) (.ok ((), rest)) :=
  yields_advance (w := [d]) h (isAscii_singleton hd)

theorem yields_bump {d : Char} (hd : d.val ≤ 127) (h : Stands data c (d :: rest)) :
    Yields data (bump data c) (.ok (some d, rest)) := by
  refine (yields_peek h).next fun _ h => ?_
  dsimp only [List.head?_cons, Option.map_some]
  rw [lead_of_ascii hd, if_pos hd]
  exact (yields_advance_one hd h).next fun _ h => yields_pure h _

/-! ## Loops -/

/-- A turn comes to the result, or it leaves a shorter rest for which the result is still the same. -/
def GoesOn (P : σ → List Char → Except Error (α × List Char) → Prop) (rest : List Char)
    (x : Except Error (α × List Char)) : Except Error (Turn σ α × List Char) → Prop
  | .ok (.done a, rest') => x = .ok (a, rest')
  | .ok (.again state, rest') => rest'.length < rest.length ∧ P state rest' x
  | .error e => x = .error e

/-- A loop has the result that its turns keep in view. It is never stuck when the rest becomes shorter. -/
theorem yields_loop {turn : σ → Reading (Turn σ α)}
    {P : σ → List Char → Except Error (α × List Char) → Prop}
    (hturn : ∀ {state c rest x}, P state rest x → Stands data c rest →
      ∃ y, Yields data (turn state c) y ∧ GoesOn P rest x y)
    {state : σ} (hP : P state rest x) (h : Stands data c rest) : Yields data (loop data turn state c) x := by
  induction hn : rest.length using Nat.strongRecOn generalizing state c rest with
  | ind n ih =>
    obtain ⟨y, hy, hgoes⟩ := hturn hP h
    rw [loop]
    generalize turn state c = r at hy
    cases hy with
    | error hsound =>
      cases hgoes
      exact .error hsound
    | @ok next c' rest' hstands =>
      cases next with
      | done a =>
        cases hgoes
        exact .ok hstands
      | again state' =>
        obtain ⟨hshorter, hP'⟩ := hgoes
        -- the places before a rest and its length add up to the same, so a shorter rest begins further on
        have hpos := h.pos_add
        have hpos' := hstands.pos_add
        have hmoved : c.pos < c'.pos ∧ c'.pos ≤ data.utf8ByteSize := ⟨by omega, hstands.isPlace.1⟩
        dsimp only
        rw [if_pos hmoved]
        exact ih _ (hn ▸ hshorter) hP' hstands rfl

theorem exists_of_any_head {p : Char → Bool} (h : rest.head?.any p = true) :
    ∃ d s, rest = d :: s ∧ p d = true := by
  cases rest with
  | nil => cases h
  | cons d s => exact ⟨d, s, rfl, h⟩

theorem yields_skipWhile {p : Char → Bool} (hp : IsAsciiKind p) (h : Stands data c rest) :
    Yields data (skipWhile data p c) (.ok ((), rest.dropWhile p)) := by
  refine yields_loop (P := fun _ rest x => x = .ok ((), rest.dropWhile p)) (fun {_ c rest x} hx h => ?_) rfl h
  by_cases hnext : rest.head?.any p = true
  · obtain ⟨d, rest, rfl, hd⟩ := exists_of_any_head hnext
    refine ⟨.ok (.again (), rest), (yields_peek h).next fun _ h => ?_, Nat.lt_succ_self _, ?_⟩
    · rw [any_map_lead hp, if_pos hnext]
      exact (yields_advance_one (hp d hd) h).next fun _ h => yields_pure h _
    · exact hx.trans (by rw [List.dropWhile_cons_of_pos hd])
  · refine ⟨.ok (.done (), rest), (yields_peek h).next fun _ h => ?_, ?_⟩
    · rw [any_map_lead hp, if_neg hnext]
      exact yields_pure h _
    · cases rest with
      | nil => exact hx
      | cons d rest =>
        have hd : ¬ p d = true := hnext
        exact hx.trans (by rw [List.dropWhile_cons_of_neg hd])

/-! ## Gaps and numbers -/

theorem yields_skipGap (h : Stands data c rest) : Yields data (skipGap data c) (.ok ((), skipSeparators rest)) :=
  yields_skipWhile isAsciiKind_isSeparator h

theorem yields_digits (h : Stands data c rest) :
    Yields data (digits data c) (.ok ((rest.takeWhile isDigit).length, rest.dropWhile isDigit)) := by
  refine (yields_place h).next fun _ h₀ => ?_
  refine (yields_skipWhile isAsciiKind_isDigit h₀).next fun c₁ h₁ => ?_
  refine (yields_place h₁).next fun _ h₂ => ?_
  have hplaces := h.pos_add.trans h₁.pos_add.symm
  have hlength := congrArg List.length (List.takeWhile_append_dropWhile (p := isDigit) (l := rest))
  rw [List.length_append] at hlength
  have hcount : c₁.pos - c.pos = (rest.takeWhile isDigit).length := by omega
  rw [hcount]
  exact yields_pure h₂ _

theorem snd_scanSign_cons {d : Char} (hd : isSign d = true) (s : List Char) : (scanSign (d :: s)).2 = s := by
  rcases Bool.or_eq_true_iff.1 hd with hd | hd
  · rw [eq_of_beq hd]
    rfl
  · rw [eq_of_beq hd]
    rfl

theorem snd_scanSign_of_head (h : ¬ rest.head?.any isSign = true) : (scanSign rest).2 = rest := by
  unfold scanSign
  split
  · exact absurd (by rfl) h
  · exact absurd (by rfl) h
  · rfl

theorem yields_sign (h : Stands data c rest) : Yields data (sign data c) (.ok ((), (scanSign rest).2)) := by
  refine (yields_peek h).next fun _ h => ?_
  rw [any_map_lead isAsciiKind_isSign]
  by_cases hnext : rest.head?.any isSign = true
  · obtain ⟨d, rest, rfl, hd⟩ := exists_of_any_head hnext
    rw [if_pos hnext, snd_scanSign_cons hd]
    exact yields_advance_one (isAsciiKind_isSign d hd) h
  · rw [if_neg hnext, snd_scanSign_of_head hnext]
    exact yields_pure h _

theorem scanFraction_of_head (h : ¬ rest.head?.any (· == '.') = true) : scanFraction rest = ([], rest) := by
  unfold scanFraction
  split
  · exact absurd (by rfl) h
  · rfl

theorem yields_fraction (h : Stands data c rest) :
    Yields data (fraction data c) (.ok ((scanFraction rest).1.length, (scanFraction rest).2)) := by
  have hpoint : IsAsciiKind (· == '.') := isAsciiKind_beq (by decide)
  refine (yields_peek h).next fun _ h => ?_
  rw [any_map_lead hpoint]
  by_cases hnext : rest.head?.any (· == '.') = true
  · obtain ⟨d, rest, rfl, hd⟩ := exists_of_any_head hnext
    obtain rfl : d = '.' := eq_of_beq hd
    rw [if_pos hnext]
    exact (yields_advance_one (by decide) h).next fun _ h => yields_digits h
  · rw [if_neg hnext, scanFraction_of_head hnext]
    exact yields_pure h _

/-- A sign after a mark puts the digits one byte further ahead. -/
theorem exists_ahead (s : List Char) :
    ∃ w, s = w ++ (scanSign s).2 ∧ IsAscii w ∧ (if s.head?.any isSign = true then 2 else 1) = w.length + 1 := by
  by_cases hnext : s.head?.any isSign = true
  · obtain ⟨d, s, rfl, hd⟩ := exists_of_any_head hnext
    refine ⟨[d], ?_, isAscii_singleton (isAsciiKind_isSign d hd), if_pos hnext⟩
    rw [snd_scanSign_cons hd, List.singleton_append]
  · exact ⟨[], (snd_scanSign_of_head hnext).symm, nofun, if_neg hnext⟩

theorem snd_scanExponent_cons {d : Char} (hd : isMark d = true) (s : List Char) :
    (scanExponent (d :: s)).2 =
      if (scanSign s).2.head?.any isDigit = true then (scanSign s).2.dropWhile isDigit else d :: s := by
  have hmark : d = 'e' ∨ d = 'E' := (Bool.or_eq_true_iff.1 hd).imp eq_of_beq eq_of_beq
  unfold scanExponent scanDigits
  dsimp only
  rw [if_pos hmark]
  cases (scanSign s).2 with
  | nil => rfl
  | cons e t => cases he : isDigit e <;> simp [he]

theorem scanExponent_of_head (h : ¬ rest.head?.any isMark = true) : (scanExponent rest).2 = rest := by
  cases rest with
  | nil => rfl
  | cons d s =>
    have hmark : ¬ (d = 'e' ∨ d = 'E') := fun hd => h (Bool.or_eq_true_iff.2 (hd.imp beq_iff_eq.2 beq_iff_eq.2))
    rw [scanExponent, if_neg hmark]

theorem yields_exponent (h : Stands data c rest) :
    Yields data (exponent data c) (.ok ((), (scanExponent rest).2)) := by
  refine (yields_peek h).next fun _ h => ?_
  rw [any_map_lead isAsciiKind_isMark]
  by_cases hnext : rest.head?.any isMark = true
  · obtain ⟨d, s, rfl, hd⟩ := exists_of_any_head hnext
    have hmark : IsAscii [d] := isAscii_singleton (isAsciiKind_isMark d hd)
    rw [if_pos hnext, snd_scanExponent_cons hd]
    refine (yields_peekAt (w := [d]) h hmark).next fun c₁ h => ?_
    obtain ⟨w, hw, hascii, hahead⟩ := exists_ahead s
    have h : Stands data c₁ ((d :: w) ++ (scanSign s).2) := by
      rw [List.cons_append, ← hw]
      exact h
    rw [any_map_lead isAsciiKind_isSign, hahead]
    refine (yields_peekAt (w := d :: w) h (hmark.append hascii)).next fun c₂ h => ?_
    rw [any_map_lead isAsciiKind_isDigit]
    by_cases hdigit : (scanSign s).2.head?.any isDigit = true
    · rw [if_pos hdigit, if_pos hdigit]
      refine (yields_advance (w := d :: w) h (hmark.append hascii)).next fun _ h => ?_
      exact (yields_digits h).next fun _ h => yields_pure h _
    · rw [if_neg hdigit, if_neg hdigit]
      have h : Stands data c₂ (d :: s) := by
        rw [hw]
        exact h
      exact yields_pure h _
  · rw [if_neg hnext, scanExponent_of_head hnext]
    exact yields_pure h _

theorem yields_textBetween {start finish : Nat} {text : String} (h : Stands data c rest)
    (hcut : textBetween? data start finish = some text) :
    Yields data (textBetween data start finish c) (.ok (text, rest)) := by
  rw [textBetween, hcut]
  exact .ok h

/-- A numeral is in the grammar of numbers. -/
theorem floatOf?_of_spells {text : String} {n : Numeral} (h : Spells text.toList n) :
    floatOf? text = some n.toFloat := by
  rw [floatOf?, scan?_of_spells h]

theorem yields_numberOf {text : String} {n : Numeral} (h : Stands data c rest) (hn : Spells text.toList n) :
    Yields data (numberOf text c) (.ok (n.toFloat, rest)) := by
  have hstands : Stands data { c with numerals := text :: c.numerals } rest :=
    ⟨⟨h.visited, List.forall_mem_cons.2 ⟨⟨n, hn⟩, h.numerals⟩⟩, h.split⟩
  have hlogged : Yields data ((modify fun c => { c with numerals := text :: c.numerals } : Reading Unit) c)
      (.ok ((), rest)) := .ok hstands
  refine hlogged.next fun _ h => ?_
  rw [floatOf?_of_spells hn]
  exact yields_pure h _

/-- The scanner finds a numeral where there are digits, before or after a point. -/
theorem scan?_of_count {s : List Char} {count : Nat}
    (h : ((scanSign s).2.takeWhile isDigit).length
      + (scanFraction ((scanSign s).2.dropWhile isDigit)).1.length = count) :
    if count = 0 then scan? s = none
    else ∃ n, scan? s = some (n, (scanExponent (scanFraction ((scanSign s).2.dropWhile isDigit)).2).2) := by
  split
  · next hzero =>
    cases hscan : scan? s with
    | none => rfl
    | some p =>
      have hdigits := (scan?_eq_some_iff_cuts.1 hscan).1
      rw [← List.length_pos_iff, ← List.length_pos_iff, wholeAt, fractionAt] at hdigits
      omega
  · next hcount =>
    refine ⟨_, scan?_eq_some_iff_cuts.2 ⟨?_, rfl, rfl⟩⟩
    rw [← List.length_pos_iff, ← List.length_pos_iff, wholeAt, fractionAt]
    omega

/-- A number is read as the longest numeral. Where there is none, the cursor goes back to where it would start. -/
theorem yields_number (h : Stands data c rest) : Yields data (number data c) (scanNumber rest) := by
  refine (yields_skipGap h).next fun c₁ h₁ => ?_
  unfold scanNumber
  dsimp only
  generalize skipSeparators rest = s at h₁
  refine (yields_place h₁).next fun _ h => ?_
  refine (yields_sign h).next fun _ h => ?_
  refine (yields_digits h).next fun _ h => ?_
  refine (yields_fraction h).next fun c₂ h => ?_
  generalize hcount : (_ : Nat) + (_ : Nat) = count
  have hscan := scan?_of_count hcount
  by_cases hzero : count = 0
  · rw [if_pos hzero] at hscan ⊢
    rw [hscan]
    exact (yields_moveTo h.toIsSound h₁).next fun _ h => yields_report_here h
  · rw [if_neg hzero] at hscan ⊢
    obtain ⟨n, hscan⟩ := hscan
    -- what the scanner consumes is what stands between the two places
    obtain ⟨w, hw, hspells⟩ := spells_of_scan? hscan
    rw [hscan]
    refine (yields_exponent h).next fun c₃ h₃ => ?_
    refine (yields_place h₃).next fun c₄ h₄ => ?_
    generalize (scanExponent _).2 = rest' at hscan hw h₃ h₄
    subst hw
    have hascii : IsAscii w := fun d hd => val_le_of_isNumeralChar (isNumeralChar_of_spells hspells d hd)
    refine (yields_textBetween h₄ (h₁.textBetween? hascii h₃)).next fun _ h => ?_
    have htext : Spells (String.ofList w).toList n := String.toList_ofList.symm ▸ hspells
    refine (yields_numberOf h htext).next fun _ h => ?_
    have hwritten : (w ++ rest').take ((w ++ rest').length - rest'.length) = w := by simp
    dsimp only
    rw [finite?, hwritten]
    cases isFinite n.toFloat with
    | true => exact yields_pure h _
    | false => exact yields_report h.toIsSound h₁

/-! ## Flags and starts of numbers -/

theorem yields_flag (h : Stands data c rest) : Yields data (flag data c) (scanFlag rest) := by
  have hzero : IsAsciiKind (· == '0') := isAsciiKind_beq (by decide)
  have hone : IsAsciiKind (· == '1') := isAsciiKind_beq (by decide)
  refine (yields_skipGap h).next fun c₁ h => ?_
  unfold scanFlag
  generalize skipSeparators rest = s at h
  refine (yields_peek h).next fun c₂ h => ?_
  rw [any_map_lead hzero, any_map_lead hone]
  by_cases hoff : s.head?.any (· == '0') = true
  · obtain ⟨d, s, rfl, hd⟩ := exists_of_any_head hoff
    obtain rfl : d = '0' := eq_of_beq hd
    rw [if_pos hoff]
    exact (yields_advance_one (by decide) h).next fun _ h => yields_pure h _
  rw [if_neg hoff]
  by_cases hon : s.head?.any (· == '1') = true
  · obtain ⟨d, s, rfl, hd⟩ := exists_of_any_head hon
    obtain rfl : d = '1' := eq_of_beq hd
    rw [if_pos hon]
    exact (yields_advance_one (by decide) h).next fun _ h => yields_pure h _
  rw [if_neg hon]
  split
  · exact absurd rfl hoff
  · exact absurd rfl hon
  · exact yields_report_here h

theorem startsNumber_cons (d : Char) (s : List Char) :
    startsNumber (d :: s) = (isFirst d || (isSign d && s.head?.any isFirst)) := by
  cases s <;> rfl

theorem yields_atNumber (h : Stands data c rest) :
    Yields data (atNumber data c) (.ok (startsNumber rest, rest)) := by
  refine (yields_peek h).next fun _ h => ?_
  rw [any_map_lead isAsciiKind_isFirst, any_map_lead isAsciiKind_isSign]
  cases rest with
  | nil => exact yields_pure h _
  | cons d s =>
    rw [startsNumber_cons, List.head?_cons, Option.any_some, Option.any_some]
    cases hfirst : isFirst d with
    | true => exact yields_pure h _
    | false =>
      cases hsign : isSign d with
      | false => exact yields_pure h _
      | true =>
        have hascii : IsAscii [d] := isAscii_singleton (isAsciiKind_isSign d hsign)
        refine (yields_peekAt (w := [d]) h hascii).next fun _ h => ?_
        rw [any_map_lead isAsciiKind_isFirst]
        exact yields_pure h _

end VectorIcon.Path.Cursor
