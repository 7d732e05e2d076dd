import Mathlib.Algebra.Group.Nat.Defs
import VectorIcon.Color.Argb

/-!
# Words of colors

A color is its alpha channel and the word below it (`eq_of_alpha_of_rgb`), and another alpha channel
changes nothing below (`rgb_withAlpha`). `hexDigits width n` keeps the last `width` digits of `n`, and
reading them gives `n` modulo `16 ^ width` (`hexNumber?_hexDigits`). So eight digits give back a word, and
six what it has below the alpha channel.
-/

namespace VectorIcon.Color

open Text

/-! ## Channels -/

theorem toNat_alpha (c : Color) : c.alpha.toNat = c.argb.toNat / 16 ^ 6 := by
  have hlt := c.argb.toNat_lt
  have hshift : (c.argb >>> 24).toNat = c.argb.toNat / 2 ^ 24 := by
    rw [UInt32.toNat_shiftRight, Nat.shiftRight_eq_div_pow]
    rfl
  rw [alpha, UInt32.toNat_toUInt8, hshift]
  omega

theorem isSolid_iff (c : Color) : c.isSolid = true ↔ c.argb.toNat / 16 ^ 6 = 255 := by
  rw [isSolid, beq_iff_eq, ← UInt8.toNat_inj, toNat_alpha]
  rfl

theorem toNat_rgb (c : Color) : c.rgb.toNat = c.argb.toNat % 16 ^ 6 := by
  have hmask : (0x00FFFFFF : UInt32).toNat = 2 ^ 24 - 1 := rfl
  have hpow : 2 ^ 24 = 16 ^ 6 := rfl
  rw [rgb, UInt32.toNat_and, hmask, Nat.and_two_pow_sub_one_eq_mod, hpow]

/-- A color is its alpha channel and what is below it. -/
theorem eq_of_alpha_of_rgb {c d : Color} (halpha : c.alpha = d.alpha) (hrgb : c.rgb = d.rgb) :
    c = d := by
  have ha := congrArg UInt8.toNat halpha
  have hr := congrArg UInt32.toNat hrgb
  rw [toNat_alpha, toNat_alpha] at ha
  rw [toNat_rgb, toNat_rgb] at hr
  have hargb : c.argb = d.argb := by
    rw [← UInt32.toNat_inj]
    omega
  cases c
  cases d
  rw [Color.mk.injEq]
  exact hargb

theorem rgb_rgb (c : Color) : rgb ⟨c.rgb⟩ = c.rgb := by
  rw [← UInt32.toNat_inj, toNat_rgb]
  show c.rgb.toNat % 16 ^ 6 = c.rgb.toNat
  rw [toNat_rgb, Nat.mod_mod]

/-! ## Other alpha channels -/

theorem toNat_withAlpha (c : Color) (alpha : UInt8) :
    (c.withAlpha alpha).argb.toNat = alpha.toNat * 16 ^ 6 + c.argb.toNat % 16 ^ 6 := by
  have hlt := alpha.toNat_lt
  have hpow : 2 ^ 24 = 16 ^ 6 := rfl
  have hrgb : c.rgb.toNat < 2 ^ 24 := by
    rw [toNat_rgb]
    exact Nat.mod_lt _ (by decide)
  have hshift : (alpha.toUInt32 <<< 24).toNat = alpha.toNat <<< 24 := by
    rw [UInt32.toNat_shiftLeft, UInt8.toNat_toUInt32]
    refine Nat.mod_eq_of_lt ?_
    show alpha.toNat <<< 24 < 2 ^ 32
    rw [Nat.shiftLeft_eq]
    omega
  rw [withAlpha, UInt32.toNat_or, hshift, Nat.or_comm, ← Nat.shiftLeft_add_eq_or_of_lt hrgb,
    Nat.shiftLeft_eq, toNat_rgb, hpow]

theorem alpha_withAlpha (c : Color) (alpha : UInt8) : (c.withAlpha alpha).alpha = alpha := by
  rw [← UInt8.toNat_inj, toNat_alpha, toNat_withAlpha]
  omega

theorem rgb_withAlpha (c : Color) (alpha : UInt8) : (c.withAlpha alpha).rgb = c.rgb := by
  rw [← UInt32.toNat_inj, toNat_rgb, toNat_withAlpha, toNat_rgb]
  omega

/-- Under its own alpha channel a color is any color with the same channels below. -/
theorem withAlpha_alpha {c d : Color} (h : d.rgb = c.rgb) : d.withAlpha c.alpha = c :=
  eq_of_alpha_of_rgb (alpha_withAlpha d c.alpha) ((rgb_withAlpha d c.alpha).trans h)

/-! ## Digits -/

theorem hexValue?_hexDigit {d : Nat} (h : d < 16) : hexValue? (hexDigit d) = some d := by
  have hall : ∀ d : Fin 16, hexValue? (hexDigit d.val) = some d.val := by decide
  exact hall ⟨d, h⟩

theorem hexValue?_lt {c : Char} {d : Nat} (h : hexValue? c = some d) : d < 16 := by
  have hle {a b : Char} (h : a ≤ b) : a.toNat ≤ b.toNat := h
  unfold hexValue? at h
  split at h
  · next hc =>
    cases h
    have := hle hc.2
    have : '9'.toNat = 57 := rfl
    have : '0'.toNat = 48 := rfl
    omega
  split at h
  · next hc =>
    cases h
    have := hle hc.2
    have : 'f'.toNat = 102 := rfl
    have : 'a'.toNat = 97 := rfl
    omega
  split at h
  · next hc =>
    cases h
    have := hle hc.2
    have : 'F'.toNat = 70 := rfl
    have : 'A'.toNat = 65 := rfl
    omega
  · cases h

theorem length_hexDigits (width n : Nat) : (hexDigits width n).length = width := by
  induction width generalizing n with
  | zero => rfl
  | succ width ih => rw [hexDigits, List.length_append, ih, List.length_singleton]

theorem hexNumber?_concat (s : List Char) (c : Char) :
    hexNumber? (s ++ [c]) = (hexNumber? s).bind fun n => (hexValue? c).map (16 * n + ·) := by
  unfold hexNumber?
  rw [List.foldlM_append]
  cases s.foldlM (fun n c => (hexValue? c).map (16 * n + ·)) 0 with
  | none => rfl
  | some n =>
    cases hc : hexValue? c <;> simp [hc]

/-- The digits of a number read back as what they keep of it. -/
theorem hexNumber?_hexDigits (width n : Nat) :
    hexNumber? (hexDigits width n) = some (n % 16 ^ width) := by
  induction width generalizing n with
  | zero =>
    rw [Nat.pow_zero, Nat.mod_one]
    rfl
  | succ width ih =>
    rw [hexDigits, hexNumber?_concat, ih, Option.bind_some,
      hexValue?_hexDigit (Nat.mod_lt n (by omega)), Option.map_some]
    have hpow : 16 ^ (width + 1) = 16 * 16 ^ width := by rw [Nat.pow_succ, Nat.mul_comm]
    rw [hpow, Nat.mod_mul, Nat.add_comm]

/-- A number that is read from some digits has no more digits than these. -/
theorem hexNumber?_lt {s : List Char} {n : Nat} (h : hexNumber? s = some n) : n < 16 ^ s.length := by
  induction hs : s.length generalizing s n with
  | zero =>
    rw [List.length_eq_zero_iff.1 hs] at h
    cases h
    decide
  | succ k ih =>
    have hne : s ≠ [] := by
      intro hnil
      rw [hnil] at hs
      cases hs
    rw [← List.dropLast_concat_getLast hne, hexNumber?_concat] at h
    obtain ⟨m, hm, hmap⟩ := Option.bind_eq_some_iff.1 h
    obtain ⟨d, hd, hsum⟩ := Option.map_eq_some_iff.1 hmap
    have hlt := ih hm (by rw [List.length_dropLast]; omega)
    have hd := hexValue?_lt hd
    rw [Nat.pow_succ]
    omega

theorem hexDigits_mod (width n : Nat) : hexDigits width (n % 16 ^ width) = hexDigits width n := by
  induction width generalizing n with
  | zero => rfl
  | succ width ih =>
    have hpow : 16 ^ (width + 1) = 16 * 16 ^ width := by rw [Nat.pow_succ, Nat.mul_comm]
    rw [hexDigits, hexDigits, hpow, Nat.mod_mul_right_div_self, ih, Nat.mod_mul_right_mod]

theorem exists_hexDigit_of_mem {width n : Nat} {c : Char} (h : c ∈ hexDigits width n) :
    ∃ d : Fin 16, c = hexDigit d.val := by
  induction width generalizing n with
  | zero => cases h
  | succ width ih =>
    rcases List.mem_append.1 h with h | h
    · exact ih h
    · exact ⟨⟨n % 16, Nat.mod_lt n (by omega)⟩, List.mem_singleton.1 h⟩

theorem hexText_eq_iff {width : Nat} {a b : UInt32} :
    hexText width a = hexText width b ↔ a.toNat % 16 ^ width = b.toNat % 16 ^ width := by
  constructor
  · intro h
    have hdigits := String.ofList_inj.1 h
    have hread := congrArg hexNumber? hdigits
    rw [hexNumber?_hexDigits, hexNumber?_hexDigits] at hread
    exact Option.some.inj hread
  · intro h
    rw [hexText, hexText, ← hexDigits_mod, h, hexDigits_mod]

end VectorIcon.Color
