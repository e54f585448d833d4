import PaperFolding.Raster.Bmp.Header
import PaperFolding.Raster.Bmp.Runs
import PaperFolding.Raster.Picture

/-!
Pictures read from BMP files.
-/

namespace PaperFolding.Raster.Bmp

def pixel (header : Header) (palette bytes : ByteArray) (line column : Nat) : Color :=
  let at_ (place : Nat) : Nat := (bytes[place]?.getD 0).toNat
  match header.coding with
  | .direct channels =>
      let size := header.depth / 8
      let number := (List.range size).foldr
        (fun i number => 256 * number + at_ (line + column * size + i)) 0
      .ofChannels (channels.red.read number) (channels.green.read number)
        (channels.blueness.read number)
  | .indexed | .runs =>
      let bits := column * header.depth
      header.entry palette (at_ (line + bits / 8) /
        Nat.pow 2 (8 - header.depth - bits % 8) % Nat.pow 2 header.depth)

/-- The pixels in the order of the file. All rows must be there, with what fills them up. -/
def pixels? (header : Header) (bytes : ByteArray) : Option (Array Color) := do
  let palette ← header.palette? bytes
  let area := header.width * header.height
  match header.coding with
  | .runs =>
      Pen.follow? (header.entry palette) header.width header.height header.depth bytes
        (bytes.size + 1) header.start ⟨0, 0, Array.replicate area ⟨0⟩⟩
  | .indexed | .direct _ => do
      let size := rowSize header.width header.depth
      let content ← slice? bytes header.start (header.height * size)
      some (Array.ofFn (n := area) fun place =>
        pixel header palette content (place / header.width * size) (place % header.width))

def read? (bytes : ByteArray) : Option (Picture × Bool) := do
  let header ← Header.read? bytes
  let translucent :=
    match header.coding with
    | .direct channels => channels.translucent
    | .indexed | .runs => false
  if header.width = 0 ∨ header.height = 0 ∨
      !Picture.isAffordable header.width header.height (if translucent then 4 else 3) then none
  let pixels ← pixels? header bytes
  let line (row : Nat) : Nat := if header.downwards then row else header.height - 1 - row
  some (⟨header.width, header.height, Array.ofFn (n := header.width * header.height) fun place =>
    pixels[line (place / header.width) * header.width + place % header.width]?.getD ⟨0⟩⟩,
    translucent)

end PaperFolding.Raster.Bmp
