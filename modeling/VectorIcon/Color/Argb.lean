import VectorIcon.Text.Blank

/-!
# Colors

A color is one 32-bit word with the alpha channel in the most significant byte. `ofChannels` packs four
channels and names the first one that does not fit a byte.
-/

namespace VectorIcon

/-- A color with its channels packed as alpha, red, green, blue from the most significant byte. -/
structure Color where
  argb : UInt32
  deriving Repr, DecidableEq

namespace Color

/-- One of the four channels. -/
inductive Channel
  | red
  | green
  | blue
  | alpha
  deriving Repr, DecidableEq

/-- The word for a channel in messages. -/
def Channel.label : Channel → String
  | .red => "red"
  | .green => "green"
  | .blue => "blue"
  | .alpha => "alpha"

/-- Why a text or a list of channels is no color. -/
inductive Error
  | malformedHex (value : String)
  | channelOutOfRange (channel : Channel) (value : Int)
  | unsupported (value : String)
  deriving Repr, DecidableEq

/-- The message of a color error. -/
def Error.message : Error → String
  | .malformedHex value => "Invalid hex color format: " ++ value
  | .channelOutOfRange channel value =>
    "Color channel " ++ channel.label ++ " out of range [0, 255]: " ++ toString value
  | .unsupported value => "Unsupported color format: " ++ value

/-- Opaque black. -/
def black : Color := ⟨0xFF000000⟩

/-- Black without any opacity. -/
def transparent : Color := ⟨0⟩

/-- The alpha channel. -/
def alpha (c : Color) : UInt8 := (c.argb >>> 24).toUInt8

/-- The red channel. -/
def red (c : Color) : UInt8 := (c.argb >>> 16).toUInt8

/-- The green channel. -/
def green (c : Color) : UInt8 := (c.argb >>> 8).toUInt8

/-- The blue channel. -/
def blue (c : Color) : UInt8 := c.argb.toUInt8

/-- The color without its alpha channel. -/
def rgb (c : Color) : UInt32 := c.argb &&& 0x00FFFFFF

/-- The alpha channel is full. -/
def isSolid (c : Color) : Bool := c.alpha == 0xFF

/-- The color of four bytes. -/
def ofBytes (alpha red green blue : UInt8) : Color :=
  ⟨(alpha.toUInt32 <<< 24) ||| (red.toUInt32 <<< 16) ||| (green.toUInt32 <<< 8) ||| blue.toUInt32⟩

/-- A channel as a byte. -/
def channel (name : Channel) (value : Int) : Except Error UInt8 :=
  if 0 ≤ value ∧ value ≤ 255 then .ok (UInt8.ofNat value.toNat)
  else .error (.channelOutOfRange name value)

/-- The color of four channels, or the first of them that does not fit a byte. -/
def ofChannels (red green blue alpha : Int) : Except Error Color := do
  let r ← channel .red red
  let g ← channel .green green
  let b ← channel .blue blue
  let a ← channel .alpha alpha
  return ofBytes a r g b

/-- The solid color of three channels. -/
def ofRgb (red green blue : Int) : Except Error Color :=
  ofChannels red green blue 255

/-- The color with another alpha channel. -/
def withAlpha (c : Color) (alpha : UInt8) : Color :=
  ⟨c.rgb ||| (alpha.toUInt32 <<< 24)⟩

/-- The hexadecimal digit of a number below sixteen. -/
def hexDigit (n : Nat) : Char :=
  if n < 10 then Char.ofNat ('0'.toNat + n) else Char.ofNat ('A'.toNat + (n - 10))

/-- The last `width` hexadecimal digits of a number. -/
def hexDigits : Nat → Nat → List Char
  | 0, _ => []
  | width + 1, n => hexDigits width (n / 16) ++ [hexDigit (n % 16)]

/-- The last `width` hexadecimal digits of a word, as text. -/
def hexText (width : Nat) (word : UInt32) : String :=
  String.ofList (hexDigits width word.toNat)

/-- The text `#RRGGBBAA`. -/
def display (c : Color) : String :=
  "#" ++ hexText 6 c.argb ++ hexText 2 c.alpha.toUInt32

end Color

end VectorIcon
