import PaperFolding.Raster.Bmp.Header
import PaperFolding.Raster.Picture

/-!
Pictures written as BMP files with 24 bits to a pixel, the lowest row first.
-/

namespace PaperFolding.Raster.Bmp

def headerSize : Nat := 54

def headerBytes (width height : Nat) : List UInt8 :=
  let dataSize := rowSize width 24 * height
  signature ++ littleEndian 4 (headerSize + dataSize) ++ littleEndian 4 0 ++
    littleEndian 4 headerSize ++ littleEndian 4 40 ++ littleEndian 4 width ++
    littleEndian 4 height ++ littleEndian 2 1 ++ littleEndian 2 24 ++ littleEndian 4 0 ++
    littleEndian 4 dataSize ++ littleEndian 4 0 ++ littleEndian 4 0 ++ littleEndian 4 0 ++
    littleEndian 4 0

def rowBytes (picture : Picture) (row : Nat) : List UInt8 :=
  let colors := (List.range picture.width).flatMap fun column =>
    match picture.pixels[row * picture.width + column]? with
    | some color => [color.blueness, color.green, color.red]
    | none => []
  colors ++ List.replicate (rowSize picture.width 24 - 3 * picture.width) 0

def write (picture : Picture) : ByteArray :=
  (headerBytes picture.width picture.height ++
    (List.range picture.height).reverse.flatMap (rowBytes picture)).toByteArray

end PaperFolding.Raster.Bmp
