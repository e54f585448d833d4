import PaperFolding.Raster.Picture
import PaperFolding.Raster.Png.Chunk

/-!
Pictures written as PNG files, with eight bits to a channel and without compression.
-/

namespace PaperFolding.Raster.Png

def storedBlocks : Nat → ByteArray → ByteArray
  | 0, _ => ByteArray.empty
  | fuel + 1, data =>
      let size := Nat.min data.size 65535
      let isLast := data.size ≤ 65535
      let block := ((if isLast then 1 else 0) :: (littleEndian 2 size ++
        littleEndian 2 (65535 - size))).toByteArray ++ data.extract 0 size
      if isLast then block else block ++ storedBlocks fuel (data.extract size data.size)

def deflated (data : ByteArray) : ByteArray :=
  [0x78, 0x01].toByteArray ++ storedBlocks (data.size + 1) data ++
    (bigEndian 4 (adler data)).toByteArray

def rowBytes (picture : Picture) : ByteArray :=
  picture.pixels.zipIdx.foldl (fun (built : ByteArray) (color, place) =>
    let built := if place % picture.width = 0 then built.push 0 else built
    ((built.push color.red).push color.green).push color.blueness) ByteArray.empty

def ending : ByteArray := Chunk.write Tag.ending ByteArray.empty

def write (picture : Picture) : ByteArray :=
  let header := bigEndian 4 picture.width ++ bigEndian 4 picture.height ++ [8, 2, 0, 0, 0]
  signature.toByteArray ++ Chunk.write Tag.header header.toByteArray ++
    Chunk.write Tag.data (deflated (rowBytes picture)) ++ ending

end PaperFolding.Raster.Png
