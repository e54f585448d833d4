import PaperFolding.Raster.Deflate.Inflate
import PaperFolding.Raster.Picture
import PaperFolding.Raster.Png.Filter
import PaperFolding.Raster.Png.Preamble

/-!
Pictures read from PNG files, with all color types and depths.
-/

namespace PaperFolding.Raster.Png

def sample (depth : Nat) (row : ByteArray) (place : Nat) : Nat :=
  let at_ (index : Nat) : Nat := (row[index]?.getD 0).toNat
  if depth = 16 then 256 * at_ (2 * place) + at_ (2 * place + 1)
  else
    let bits := place * depth
    at_ (bits / 8) / Nat.pow 2 (8 - depth - bits % 8) % Nat.pow 2 depth

/-- A sample brought to eight bits. -/
def level (depth value : Nat) : Nat :=
  if depth = 16 then (value + 128) / 257 else value * 255 / (Nat.pow 2 depth - 1)

def pixel (header : Header) (palette row : ByteArray) (column : Nat) : Color :=
  let first := column * header.colorType.samples
  let level (i : Nat) : Nat := level header.depth (sample header.depth row (first + i))
  let entry (i : Nat) : Nat := (palette[3 * sample header.depth row first + i]?.getD 0).toNat
  match header.colorType with
  | .gray | .grayAlpha => .ofChannels (level 0) (level 0) (level 0)
  | .rgb | .rgbAlpha => .ofChannels (level 0) (level 1) (level 2)
  | .indexed => .ofChannels (entry 0) (entry 1) (entry 2)

def passRows? (header : Header) (bytes : ByteArray) :
    List Pass → Nat → Option (List (Pass × List ByteArray))
  | [], _ => some []
  | pass :: passes, start => do
      let size := header.rowSize (pass.columns header.width)
      let count := pass.rows header.height
      let rows ← rows? header.step size bytes count start ByteArray.empty
      let others ← passRows? header bytes passes (start + count * (1 + size))
      some ((pass, rows) :: others)

def putRow (header : Header) (palette : ByteArray) (pass : Pass) (pixels : Array Color)
    (row : ByteArray × Nat) : Array Color :=
  let start := (pass.top + row.2 * pass.down) * header.width + pass.left
  (List.range (pass.columns header.width)).foldl (fun pixels column =>
    pixels.setIfInBounds (start + column * pass.across) (pixel header palette row.1 column)) pixels

def assemble (header : Header) (palette : ByteArray) (passes : List (Pass × List ByteArray)) :
    Picture :=
  ⟨header.width, header.height,
    passes.foldl (fun pixels (pass, rows) =>
        rows.zipIdx.foldl (putRow header palette pass) pixels)
      (Array.replicate (header.width * header.height) ⟨0⟩)⟩

def pixelSize (preamble : Preamble) : Nat :=
  let header := preamble.header
  let samples := if header.colorType = .indexed then 3 else header.colorType.samples
  (samples + if preamble.translucent then 1 else 0) * (if header.depth = 16 then 2 else 1)

def read? (bytes : ByteArray) : Option (Picture × Bool) := do
  let (preamble, start) ← Preamble.read? bytes
  let header := preamble.header
  if !Picture.isAffordable header.width header.height (pixelSize preamble) then none
  let parts ← parts? bytes Tag.data bytes.size start
  let passes ← passRows? header (Deflate.inflateParts parts.reverse) header.passes 0
  some (assemble header (preamble.palette.getD ByteArray.empty) passes,
    header.colorType.hasAlpha || preamble.translucent)

end PaperFolding.Raster.Png
