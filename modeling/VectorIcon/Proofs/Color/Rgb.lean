import VectorIcon.Proofs.Color.Argb
import VectorIcon.Proofs.Color.Notation
import VectorIcon.Proofs.Number.Whole
import VectorIcon.Proofs.Text.Cutting

/-!
# Colors of three channels

`IsRgbCall body value` says that a text calls the function `rgb` or `rgba`. Its arguments are what the text
between the parentheses lists, so whole numbers are read as the channels that they write, whatever stands between
them (`rgb_channels`).
-/

namespace VectorIcon.Color

open Text Number

variable {body : List Char} {args : List (List Char)} {value : String} {r g b : Int}

/-! ## Packed channels -/

/-- A value that fits no byte. -/
def isOutside (v : Int) : Bool :=
  v < 0 || 255 < v

/-- The first of three channels that does not fit a byte. -/
def firstOutside? (r g b : Int) : Option (Channel × Int) :=
  [(Channel.red, r), (.green, g), (.blue, b)].find? fun (_, v) => isOutside v

theorem isOutside_eq_false {v : Int} : isOutside v = false ↔ 0 ≤ v ∧ v ≤ 255 := by
  rw [isOutside, Bool.or_eq_false_iff, decide_eq_false_iff_not, decide_eq_false_iff_not, not_lt, not_lt]

theorem channel_eq (name : Channel) (v : Int) :
    channel name v = if isOutside v then .error (.channelOutOfRange name v) else .ok (UInt8.ofNat v.toNat) := by
  unfold channel
  by_cases h : 0 ≤ v ∧ v ≤ 255
  · rw [if_pos h, isOutside_eq_false.2 h, if_neg Bool.false_ne_true]
  · have hout : isOutside v = true := Bool.eq_true_of_not_eq_false (mt isOutside_eq_false.1 h)
    rw [if_neg h, if_pos hout]

theorem ofRgb_eq (r g b : Int) : ofRgb r g b =
    match firstOutside? r g b with
    | some (name, v) => .error (.channelOutOfRange name v)
    | none => .ok (ofBytes 255 (UInt8.ofNat r.toNat) (UInt8.ofNat g.toNat) (UInt8.ofNat b.toNat)) := by
  rw [ofRgb, ofChannels, channel_eq, channel_eq, channel_eq, firstOutside?, List.find?_cons, List.find?_cons,
    List.find?_cons, List.find?_nil]
  dsimp only
  cases isOutside r with
  | true => rfl
  | false =>
    cases isOutside g with
    | true => rfl
    | false => cases isOutside b <;> rfl

theorem isOutside_of_none (h : firstOutside? r g b = none) :
    isOutside r = false ∧ isOutside g = false ∧ isOutside b = false := by
  have hall := List.find?_eq_none.1 h
  exact ⟨Bool.not_eq_true _ ▸ hall (.red, r) (by simp), Bool.not_eq_true _ ▸ hall (.green, g) (by simp),
    Bool.not_eq_true _ ▸ hall (.blue, b) (by simp)⟩

theorem toNat_red (c : Color) : c.red.toNat = c.argb.toNat / 2 ^ 16 % 2 ^ 8 := by
  rw [red, UInt32.toNat_toUInt8, UInt32.toNat_shiftRight, Nat.shiftRight_eq_div_pow]
  rfl

theorem toNat_green (c : Color) : c.green.toNat = c.argb.toNat / 2 ^ 8 % 2 ^ 8 := by
  rw [green, UInt32.toNat_toUInt8, UInt32.toNat_shiftRight, Nat.shiftRight_eq_div_pow]
  rfl

theorem toNat_blue (c : Color) : c.blue.toNat = c.argb.toNat % 2 ^ 8 :=
  UInt32.toNat_toUInt8 _

theorem toNat_shiftLeft (v : UInt8) {k : UInt32} (hk : k.toNat ≤ 24) :
    (v.toUInt32 <<< k).toNat = v.toNat <<< k.toNat := by
  have hlt := v.toNat_lt
  have hprod : v.toNat <<< k.toNat < 2 ^ 32 := by
    calc v.toNat <<< k.toNat = v.toNat * 2 ^ k.toNat := Nat.shiftLeft_eq ..
      _ ≤ 255 * 2 ^ 24 := Nat.mul_le_mul (by omega) (Nat.pow_le_pow_right (by decide) hk)
      _ < 2 ^ 32 := by decide
  have hwidth : k.toNat % 32 = k.toNat := Nat.mod_eq_of_lt (by omega)
  rw [UInt32.toNat_shiftLeft, UInt8.toNat_toUInt32, hwidth, Nat.mod_eq_of_lt hprod]

/-- The four bytes stand side by side. -/
theorem toNat_ofBytes (alpha red green blue : UInt8) : (ofBytes alpha red green blue).argb.toNat =
    alpha.toNat * 2 ^ 24 + (red.toNat * 2 ^ 16 + (green.toNat * 2 ^ 8 + blue.toNat)) := by
  have hred := red.toNat_lt
  have hgreen := green.toNat_lt
  have hblue := blue.toNat_lt
  have hlow : green.toNat <<< 8 ||| blue.toNat = green.toNat * 2 ^ 8 + blue.toNat := by
    rw [← Nat.shiftLeft_add_eq_or_of_lt hblue, Nat.shiftLeft_eq]
  have hmiddle : red.toNat <<< 16 ||| (green.toNat * 2 ^ 8 + blue.toNat) =
      red.toNat * 2 ^ 16 + (green.toNat * 2 ^ 8 + blue.toNat) := by
    rw [← Nat.shiftLeft_add_eq_or_of_lt (by omega), Nat.shiftLeft_eq]
  have hhigh : alpha.toNat <<< 24 ||| (red.toNat * 2 ^ 16 + (green.toNat * 2 ^ 8 + blue.toNat)) =
      alpha.toNat * 2 ^ 24 + (red.toNat * 2 ^ 16 + (green.toNat * 2 ^ 8 + blue.toNat)) := by
    rw [← Nat.shiftLeft_add_eq_or_of_lt (by omega), Nat.shiftLeft_eq]
  rw [ofBytes, UInt32.toNat_or, UInt32.toNat_or, UInt32.toNat_or, Nat.or_assoc, Nat.or_assoc,
    toNat_shiftLeft _ (by decide), toNat_shiftLeft _ (by decide), toNat_shiftLeft _ (by decide),
    UInt8.toNat_toUInt32]
  show alpha.toNat <<< 24 ||| (red.toNat <<< 16 ||| (green.toNat <<< 8 ||| blue.toNat)) = _
  rw [hlow, hmiddle, hhigh]

theorem ofRgb_of_none (h : firstOutside? r g b = none) :
    ∃ c, ofRgb r g b = .ok c ∧ c.alpha = 255 ∧
      (c.red.toNat : Int) = r ∧ (c.green.toNat : Int) = g ∧ (c.blue.toNat : Int) = b := by
  obtain ⟨hr, hg, hb⟩ := isOutside_of_none h
  rw [isOutside_eq_false] at hr hg hb
  have hbyte {v : Int} (hv : 0 ≤ v ∧ v ≤ 255) : ((UInt8.ofNat v.toNat).toNat : Int) = v := by
    have hlt : v.toNat < 256 := by omega
    rw [UInt8.toNat_ofNat_of_lt' hlt, Int.toNat_of_nonneg hv.1]
  have hr := hbyte hr
  have hg := hbyte hg
  have hb := hbyte hb
  refine ⟨_, by rw [ofRgb_eq, h], ?_⟩
  rw [← UInt8.toNat_inj, toNat_alpha, toNat_red, toNat_green, toNat_blue, toNat_ofBytes]
  have hfull : (255 : UInt8).toNat = 255 := rfl
  omega

/-! ## Arguments -/

/-- A blank, a comma or a slash. -/
def isSeparator (c : Char) : Bool :=
  isBlank c || c == ',' || c == '/'

theorem isSeparator_toLower (c : Char) : isSeparator c.toLower = isSeparator c := by
  have hmark {m : Char} (hm : isLetter m = false) : (c.toLower == m) = (c == m) := by
    rw [Bool.eq_iff_iff, beq_iff_eq, beq_iff_eq, toLower_eq_iff hm]
  rw [isSeparator, isBlank_toLower, hmark (by decide), hmark (by decide), isSeparator]

theorem arguments_lower (h : Lists isSeparator body args) : arguments (lower body) = args.map lower := by
  have hfields : arguments (lower body) = (fields isSeparator body).map lower :=
    fields_map isSeparator_toLower body
  rw [hfields, fields_of_lists h]

theorem cases_of_mem_isWhole {text : List Char} {n : Int} {c : Char} (h : IsWhole text n) (hc : c ∈ text) :
    isDigit c = true ∨ c = '+' ∨ c = '-' := by
  obtain @⟨sign, negative, digits, hsign, -, hdigits⟩ := h
  rcases List.mem_append.1 hc with hc | hc
  · cases hsign with
    | none => cases hc
    | plus => exact .inr (.inl (List.mem_singleton.1 hc))
    | minus => exact .inr (.inr (List.mem_singleton.1 hc))
  · exact .inl (hdigits c hc)

theorem lower_of_isWhole {text : List Char} {n : Int} (h : IsWhole text n) : lower text = text := by
  refine (List.map_congr_left fun c hc => ?_).trans (List.map_id _)
  rcases cases_of_mem_isWhole h hc with hdigit | rfl | rfl
  · exact toLower_of_isLetter (isLetter_of_isDigit hdigit)
  · rfl
  · rfl

/-- A whole number that fits a mantissa is the channel that it writes. -/
theorem rgbChannel?_of_isWhole {text : List Char} {n : Int} (h : IsWhole text n) (hlt : n.natAbs < 2 ^ 53) :
    rgbChannel? text = some n := by
  have hpercent : before? ['%'] text = none := by
    refine before?_eq_none fun hmem => ?_
    rcases cases_of_mem_isWhole h hmem with hdigit | hplus | hminus
    · exact absurd hdigit (by decide)
    · exact absurd hplus (by decide)
    · exact absurd hminus (by decide)
  obtain ⟨v, hread, hnearest⟩ := exists_read?_of_isWhole h hlt
  have hwhole : wholeChannel v = n := by
    have hleast : Int64.minValue.toInt = -2 ^ 63 := by decide
    have hgreatest : Int64.maxValue.toInt = 2 ^ 63 - 1 := by decide
    rw [wholeChannel, hnearest, hleast, hgreatest]
    dsimp only
    omega
  rw [rgbChannel?, hpercent, hread, Option.map_some, hwhole]

/-- Three whole numbers are the arguments of a solid color. -/
theorem ofFunction?_whole (h : List.Forall₂ IsWhole args [r, g, b]) (hlt : ∀ v ∈ [r, g, b], v.natAbs < 2 ^ 53) :
    ofFunction? .rgb (args.map lower) = some (ofRgb r g b) := by
  obtain _ | ⟨hr, _ | ⟨hg, _ | ⟨hb, ⟨⟩⟩⟩⟩ := h
  have hred := rgbChannel?_of_isWhole hr (hlt r (by simp))
  have hgreen := rgbChannel?_of_isWhole hg (hlt g (by simp))
  have hblue := rgbChannel?_of_isWhole hb (hlt b (by simp))
  rw [List.map_cons, List.map_cons, List.map_cons, List.map_nil, lower_of_isWhole hr, lower_of_isWhole hg,
    lower_of_isWhole hb, ofFunction?, hred, hgreen, hblue]
  rfl

theorem ofFunction?_eq_none (function : Function) (hthree : args.length ≠ 3) (hfour : args.length ≠ 4) :
    ofFunction? function args = none := by
  unfold ofFunction?
  split
  · exact absurd rfl hthree
  · exact absurd rfl hfour
  · exact absurd rfl hthree
  · exact absurd rfl hfour
  · rfl

/-! ## Calls -/

/-- The name of the function, in any letter case. -/
def IsRgb (word : List Char) : Prop :=
  lower word = ['r', 'g', 'b'] ∨ lower word = ['r', 'g', 'b', 'a']

/-- A call of the function without blanks around it. -/
def call (word gap body : List Char) : List Char :=
  word ++ (gap ++ '(' :: (body ++ [')']))

/-- The text is a call of the function, with what stands between the parentheses. -/
def IsRgbCall (body : List Char) (value : String) : Prop :=
  ∃ before word gap after, IsBlanks before ∧ IsRgb word ∧ IsBlanks gap ∧ IsBlanks after ∧
    value.toList = before ++ (call word gap body ++ after)

theorem functionBody?_append {gap : List Char} (name : List Char) (hname : name = [] ∨ name = ['a'])
    (hgap : IsBlanks gap) (hline : '\n' ∉ body) :
    functionBody? (['r', 'g', 'b'] ++ (name ++ (gap ++ '(' :: (body ++ [')'])))) = some (.rgb, body) := by
  have hrgb (s : List Char) : after? "rgb".toList (['r', 'g', 'b'] ++ s) = some s := after?_append ..
  have hhead : (gap ++ '(' :: (body ++ [')'])).head? ≠ some 'a' := by
    cases gap with
    | nil =>
      show some '(' ≠ some 'a'
      decide
    | cons c gap =>
      intro hc
      have hblank := hgap c (List.mem_cons_self ..)
      rw [Option.some.inj hc] at hblank
      exact absurd hblank (by decide)
  have hletter {s : List Char} (hs : s.head? ≠ some 'a') : (after? ['a'] (name ++ s)).getD (name ++ s) = s := by
    rcases hname with rfl | rfl
    · rw [List.nil_append, after?_eq_none hs]
      rfl
    · rw [after?_append]
      rfl
  have hblanks : (gap ++ '(' :: (body ++ [')'])).dropWhile isBlank = ['('] ++ (body ++ [')']) := by
    rw [List.dropWhile_append_of_pos hgap]
    rfl
  have hcontains : body.contains '\n' = false := by
    rwa [← Bool.not_eq_true, List.contains_iff_mem]
  unfold functionBody?
  rw [hrgb]
  show ((after? ['('] (List.dropWhile isBlank ((after? ['a'] _).getD _))).bind fun inner => _) = _
  rw [hletter hhead, hblanks, after?_append, Option.bind_some]
  show ((before? [')'] (body ++ [')'])).bind fun body => _) = _
  rw [before?_append, Option.bind_some, hcontains]
  rfl

theorem functionBody?_call {word gap : List Char} (hword : IsRgb word) (hgap : IsBlanks gap)
    (hline : '\n' ∉ body) : functionBody? (lower (call word gap body)) = some (.rgb, lower body) := by
  have hcall : lower (call word gap body) = lower word ++ (lower gap ++ '(' :: (lower body ++ [')'])) := by
    have hinner : lower ('(' :: (body ++ [')'])) = '(' :: (lower body ++ [')']) := congrArg _ (lower_append ..)
    rw [call, lower_append, lower_append, hinner]
  have hline : '\n' ∉ lower body := mt (mem_lower_iff (by decide)).1 hline
  rw [hcall]
  rcases hword with hword | hword
  · rw [hword]
    exact functionBody?_append [] (.inl rfl) (isBlanks_lower hgap) hline
  · rw [hword]
    exact functionBody?_append ['a'] (.inr rfl) (isBlanks_lower hgap) hline

theorem isTrimmed_call {word : List Char} (hword : IsRgb word) (gap body : List Char) :
    IsTrimmed (call word gap body) := by
  obtain ⟨first, rest, rfl, hfirst⟩ : ∃ first rest, word = first :: rest ∧ first.toLower = 'r' := by
    cases word with
    | nil => rcases hword with h | h <;> cases h
    | cons first rest => rcases hword with h | h <;> exact ⟨first, rest, rfl, (List.cons.inj h).1⟩
  constructor
  · intro c hc
    obtain rfl := Option.some.inj hc
    rw [← isBlank_toLower, hfirst]
    decide
  · intro c hc
    have hlast : (call (first :: rest) gap body).getLast? = some ')' := by
      have hend : call (first :: rest) gap body = (first :: rest) ++ gap ++ ['('] ++ body ++ [')'] := by
        simp only [call, List.append_assoc, List.cons_append, List.nil_append]
      rw [hend, List.getLast?_concat]
    rw [hlast] at hc
    obtain rfl := Option.some.inj hc
    decide

theorem parse_of_isRgbCall (h : IsRgbCall body value) (hline : '\n' ∉ body) :
    parse value = match ofFunction? .rgb (arguments (lower body)) with
      | some result => result.map some
      | none => .error (.unsupported (String.ofList (trim value.toList))) := by
  obtain ⟨before, word, gap, after, hbefore, hword, hgap, hafter, hvalue⟩ := h
  have htrim : trim value.toList = call word gap body := by
    rw [hvalue, trim_between hbefore hafter (isTrimmed_call hword gap body)]
  have hmem : '(' ∈ trim value.toList := by
    rw [htrim]
    exact List.mem_append_right _ (List.mem_append_right _ (List.mem_cons_self ..))
  rw [parse_of_mem hmem (by decide), htrim, functionBody?_call hword hgap hline, if_neg]
  · rfl
  · have hhead : (lower (call word gap body)).head? = some 'r' := by
      rcases hword with hword | hword
      · rw [call, lower_append, hword]
        rfl
      · rw [call, lower_append, hword]
        rfl
    rw [hhead]
    decide

/-- Three whole numbers are packed as the channels that they write, or the first of them that does not fit a byte
is reported, whatever blanks, commas and slashes stand between them and whatever the letter case of the name. No
number of arguments but three and four is supported. -/
theorem rgb_channels (hcall : IsRgbCall body value) (hline : '\n' ∉ body) (hargs : Lists isSeparator body args) :
    (∀ r g b, List.Forall₂ IsWhole args [r, g, b] → (∀ v ∈ [r, g, b], v.natAbs < 2 ^ 53) →
      parse value = (ofRgb r g b).map some ∧
      (∀ name v, firstOutside? r g b = some (name, v) → parse value = .error (.channelOutOfRange name v)) ∧
      (firstOutside? r g b = none → ∃ c, parse value = .ok (some c) ∧ c.alpha = 255 ∧
        (c.red.toNat : Int) = r ∧ (c.green.toNat : Int) = g ∧ (c.blue.toNat : Int) = b)) ∧
      (args.length ≠ 3 → args.length ≠ 4 →
        parse value = .error (.unsupported (String.ofList (trim value.toList)))) := by
  have hparse := parse_of_isRgbCall hcall hline
  rw [arguments_lower hargs] at hparse
  refine ⟨fun r g b hwhole hlt => ?_, fun hthree hfour => ?_⟩
  · have hchannels : parse value = (ofRgb r g b).map some := by
      rw [hparse, ofFunction?_whole hwhole hlt]
    refine ⟨hchannels, fun name v hout => ?_, fun hnone => ?_⟩
    · rw [hchannels, ofRgb_eq, hout]
      rfl
    · obtain ⟨c, hc, hfields⟩ := ofRgb_of_none hnone
      exact ⟨c, by rw [hchannels, hc]; rfl, hfields⟩
  · rw [hparse, ofFunction?_eq_none]
    · rwa [List.length_map]
    · rwa [List.length_map]

theorem rgb_channels_mixed :
    IsRgbCall "12 / 300,-7".toList " RgbA (12 / 300,-7) " ∧
      Lists isSeparator "12 / 300,-7".toList ["12".toList, "300".toList, "-7".toList] ∧
      parse " RgbA (12 / 300,-7) " = .error (.channelOutOfRange .green 300) := by
  have hcall : IsRgbCall "12 / 300,-7".toList " RgbA (12 / 300,-7) " :=
    ⟨[' '], "RgbA".toList, [' '], [' '], by decide, .inr (by decide), by decide, by decide, by decide⟩
  have hgap (gap : List Char) (h : gap.all isSeparator = true) : ∀ c ∈ gap, isSeparator c = true :=
    List.all_eq_true.1 h
  have hpart (part : List Char) (h : part.any isSeparator = false) : ∀ c ∈ part, isSeparator c = false :=
    fun c hc => Bool.not_eq_true _ ▸ List.any_eq_false.1 h c hc
  have hlast : Lists isSeparator "-7".toList ["-7".toList] :=
    .last (hgap [] rfl) (by decide) (hpart "-7".toList rfl)
  have hrest : Lists isSeparator "/ 300,-7".toList ["300".toList, "-7".toList] :=
    .cons (hgap ['/', ' '] rfl) (by decide) (hpart "300".toList rfl) (by decide) hlast
  have hargs : Lists isSeparator "12 / 300,-7".toList ["12".toList, "300".toList, "-7".toList] :=
    .cons (hgap [] rfl) (by decide) (hpart "12".toList rfl) (by decide) hrest
  have hnegative : IsWhole "-7".toList (-7) := by
    have htext : (toString (-7 : Int)).toList = "-7".toList := by decide +kernel
    rw [← htext]
    exact isWhole_toString (-7)
  have hwhole : List.Forall₂ IsWhole ["12".toList, "300".toList, "-7".toList] [12, 300, -7] :=
    .cons (isWhole_toString 12) (.cons (isWhole_toString 300) (.cons hnegative .nil))
  have hchannels := (rgb_channels hcall (by decide) hargs).1 12 300 (-7) hwhole (by decide)
  exact ⟨hcall, hargs, hchannels.2.1 .green 300 (by decide)⟩

end VectorIcon.Color
