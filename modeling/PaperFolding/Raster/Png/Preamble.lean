import PaperFolding.Raster.Png.Chunk
import PaperFolding.Raster.Png.Header

/-!
What the chunks before the image data say about the picture.
-/

namespace PaperFolding.Raster.Png

structure Preamble where
  header : Header
  palette : Option ByteArray
  translucent : Bool
  frames : Nat

namespace Preamble

def ofHeader (header : Header) : Preamble := ⟨header, none, false, 0⟩

/-- A palette has some colors, but no more than a byte can tell apart. -/
def withPalette? (preamble : Preamble) (data : ByteArray) : Option Preamble :=
  if preamble.palette.isNone ∧ 0 < data.size ∧ data.size % 3 = 0 ∧ data.size ≤ 768 then
    some { preamble with palette := data }
  else none

/-- The data say how far colors shine through; data that do not fit the colors say nothing. -/
def withOpacity (preamble : Preamble) (data : ByteArray) : Preamble :=
  let fits :=
    match preamble.header.colorType with
    | .gray => 2 ≤ data.size
    | .rgb => 6 ≤ data.size
    | .indexed => preamble.palette.isSome && 0 < data.size
    | .grayAlpha | .rgbAlpha => false
  { preamble with translucent := preamble.translucent || fits }

/-- A frame before the image data is the image itself, and its number is the next one. -/
def withFrame? (preamble : Preamble) (data : ByteArray) : Option Preamble := do
  let number ← bigEndian? data 0 4
  let width ← bigEndian? data 4 4
  let height ← bigEndian? data 8 4
  let offsets ← bigEndian? data 12 8
  let disposal ← bigEndian? data 24 1
  let blending ← bigEndian? data 25 1
  if number = preamble.frames ∧ width = preamble.header.width ∧
      height = preamble.header.height ∧ offsets = 0 ∧ disposal ≤ 2 ∧ blending ≤ 1 then
    some { preamble with frames := preamble.frames + 1 }
  else none

/-- Takes a chunk into account. Only chunks that may be skipped can be damaged or unknown. -/
def add? (preamble : Preamble) (chunk : Chunk) : Option Preamble :=
  if !chunk.intact then if chunk.isCritical then none else some preamble
  else if chunk.tag = Tag.palette then preamble.withPalette? chunk.data
  else if chunk.tag = Tag.opacity then some (preamble.withOpacity chunk.data)
  else if chunk.tag = Tag.frame then preamble.withFrame? chunk.data
  else if chunk.isCritical then none
  else some preamble

def extend? (bytes : ByteArray) : Nat → Nat → Preamble → Option (Preamble × Nat)
  | 0, _, _ => none
  | fuel + 1, start, preamble => do
      let tag ← slice? bytes (start + 4) 4
      if tag.toList = Tag.data then some (preamble, start)
      else if tag.toList = Tag.frameData then none
      else do
        let chunk ← Chunk.at? bytes start
        let preamble ← preamble.add? chunk
        extend? bytes fuel (start + chunk.size) preamble

/-- The preamble of a file and the place of its image data. The header comes first; colors that are
numbers need a palette. -/
def read? (bytes : ByteArray) : Option (Preamble × Nat) := do
  if !hasTag bytes 0 signature then none
  let first ← Chunk.at? bytes signature.length
  if first.tag ≠ Tag.header ∨ !first.intact then none
  let (preamble, start) ← extend? bytes bytes.size (signature.length + first.size)
    (ofHeader (← Header.read? first.data))
  if preamble.header.colorType = .indexed ∧ preamble.palette.isNone then none
  else some (preamble, start)

end Preamble

end PaperFolding.Raster.Png
