import PaperFolding.Text.Integer

/-!
Paper colors.
-/

namespace PaperFolding

/-- A color by its red, green and blue byte, from the high byte to the low one. Files may hold wider
values, which are kept. -/
structure Color where
  packed : UInt32
deriving DecidableEq, Repr, Inhabited

namespace Color

def blue : Color := ⟨0x0000FF⟩

def navy : Color := ⟨0x000097⟩

def ofPacked (n : Int) : Color := ⟨UInt32.ofNat (n % 0x1000000).toNat⟩

def ofChannels (red green blue : Int) : Color :=
  ofPacked (red % 256 * 65536 + green % 256 * 256 + blue % 256)

def red (color : Color) : UInt8 := (color.packed >>> 16).toUInt8

def green (color : Color) : UInt8 := (color.packed >>> 8).toUInt8

def blueness (color : Color) : UInt8 := color.packed.toUInt8

def channels (color : Color) : List Nat :=
  [color.red.toNat, color.green.toNat, color.blueness.toNat]

def text (color : Color) : String := "#" ++ Text.hexadecimal 6 color.packed.toNat

end Color

end PaperFolding
