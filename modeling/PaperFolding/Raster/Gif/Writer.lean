import PaperFolding.Raster.Gif.Block
import PaperFolding.Raster.Gif.Words
import PaperFolding.Raster.Picture

/-!
Pictures written as GIF files with one frame, which has a table of its own.
-/

namespace PaperFolding.Raster.Gif

def palette (picture : Picture) : List Color :=
  picture.pixels.foldl (fun found color => if color ∈ found then found else found ++ [color]) []

def tableBits (count : Nat) : Nat := Nat.log2 (Nat.max count 2 - 1) + 1

def tableBytes (colors : List Color) : List UInt8 :=
  let entries := colors.flatMap fun color => [color.red, color.green, color.blueness]
  entries ++ List.replicate (3 * Nat.pow 2 (tableBits colors.length) - entries.length) 0

def symbolBits (count : Nat) : Nat := Nat.max (tableBits count) 2

def frameWords (bits : Nat) (symbols : List Nat) : List UInt8 :=
  packWords (bits + 1) (clearWord bits :: plainWords bits (plainRun bits) symbols) 0 0

def write (picture : Picture) : ByteArray :=
  let colors := palette picture
  let bits := symbolBits colors.length
  let size := littleEndian 2 picture.width ++ littleEndian 2 picture.height
  let data := frameWords bits (picture.pixels.toList.map fun color => colors.idxOf color)
  (signature ++ size ++ [0x80, 0, 0] ++ tableBytes [] ++
    [extensionMark, controlLabel, 4, 8, 0, 0, 0, 0] ++
    [imageMark, 0, 0, 0, 0] ++ size ++ [UInt8.ofNat (0x7F + tableBits colors.length)] ++
    tableBytes colors ++ [UInt8.ofNat bits] ++ blockBytes (data.length + 1) data ++
    [0x3B]).toByteArray

end PaperFolding.Raster.Gif
