import PaperFolding.Raster.Field

/-!
How the pixels of a PNG file are laid out.
-/

namespace PaperFolding.Raster.Png

inductive ColorType where
  | gray
  | rgb
  | indexed
  | grayAlpha
  | rgbAlpha
deriving DecidableEq, Repr

namespace ColorType

def ofNat? : Nat → Option ColorType
  | 0 => some gray
  | 2 => some rgb
  | 3 => some indexed
  | 4 => some grayAlpha
  | 6 => some rgbAlpha
  | _ => none

def samples : ColorType → Nat
  | gray | indexed => 1
  | grayAlpha => 2
  | rgb => 3
  | rgbAlpha => 4

def depths : ColorType → List Nat
  | gray => [1, 2, 4, 8, 16]
  | indexed => [1, 2, 4, 8]
  | rgb | grayAlpha | rgbAlpha => [8, 16]

def hasAlpha : ColorType → Bool
  | grayAlpha | rgbAlpha => true
  | gray | rgb | indexed => false

end ColorType

/-- Pixels that are stored together: those `across` and `down` apart, from one of them on. -/
structure Pass where
  left : Nat
  top : Nat
  across : Nat
  down : Nat
deriving DecidableEq, Repr

def Pass.columns (pass : Pass) (width : Nat) : Nat :=
  (width - pass.left + (pass.across - 1)) / pass.across

def Pass.rows (pass : Pass) (height : Nat) : Nat :=
  (height - pass.top + (pass.down - 1)) / pass.down

def wholePass : Pass := ⟨0, 0, 1, 1⟩

def interlacedPasses : List Pass :=
  [⟨0, 0, 8, 8⟩, ⟨4, 0, 8, 8⟩, ⟨0, 4, 4, 8⟩, ⟨2, 0, 4, 4⟩, ⟨0, 2, 2, 4⟩, ⟨1, 0, 2, 2⟩, ⟨0, 1, 1, 2⟩]

structure Header where
  width : Nat
  height : Nat
  depth : Nat
  colorType : ColorType
  interlaced : Bool
deriving Repr

namespace Header

def read? (data : ByteArray) : Option Header := do
  let width ← bigEndian? data 0 4
  let height ← bigEndian? data 4 4
  let depth ← bigEndian? data 8 1
  let colorType ← ColorType.ofNat? (← bigEndian? data 9 1)
  let methods ← bigEndian? data 10 2
  let interlacing ← bigEndian? data 12 1
  if data.size = 13 ∧ 0 < width ∧ 0 < height ∧ depth ∈ colorType.depths ∧ methods = 0 ∧
      interlacing ≤ 1 then
    some ⟨width, height, depth, colorType, interlacing = 1⟩
  else none

def passes (header : Header) : List Pass :=
  (if header.interlaced then interlacedPasses else [wholePass]).filter fun pass =>
    0 < pass.columns header.width && 0 < pass.rows header.height

def rowSize (header : Header) (columns : Nat) : Nat :=
  (columns * header.colorType.samples * header.depth + 7) / 8

def step (header : Header) : Nat := (header.colorType.samples * header.depth + 7) / 8

end Header

end PaperFolding.Raster.Png
