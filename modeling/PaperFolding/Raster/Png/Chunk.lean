import PaperFolding.Raster.Checksum
import PaperFolding.Raster.Field

/-!
The chunks that PNG files consist of.
-/

namespace PaperFolding.Raster.Png

def signature : List UInt8 := [0x89, 0x50, 0x4E, 0x47, 0x0D, 0x0A, 0x1A, 0x0A]

namespace Tag

def header : List UInt8 := [0x49, 0x48, 0x44, 0x52]

def palette : List UInt8 := [0x50, 0x4C, 0x54, 0x45]

def opacity : List UInt8 := [0x74, 0x52, 0x4E, 0x53]

def frame : List UInt8 := [0x66, 0x63, 0x54, 0x4C]

def frameData : List UInt8 := [0x66, 0x64, 0x41, 0x54]

def data : List UInt8 := [0x49, 0x44, 0x41, 0x54]

def ending : List UInt8 := [0x49, 0x45, 0x4E, 0x44]

end Tag

structure Chunk where
  tag : List UInt8
  data : ByteArray
  intact : Bool

namespace Chunk

/-- A chunk whose first letter is a capital may not be skipped. -/
def isCritical (chunk : Chunk) : Bool :=
  match chunk.tag with
  | first :: _ => first &&& 0x20 = 0
  | [] => false

def size (chunk : Chunk) : Nat := 12 + chunk.data.size

def at? (bytes : ByteArray) (start : Nat) : Option Chunk := do
  let count ← bigEndian? bytes start 4
  let tag ← slice? bytes (start + 4) 4
  let data ← slice? bytes (start + 8) count
  let sum ← bigEndian? bytes (start + 8 + count) 4
  some ⟨tag.toList, data, (redundancy (tag ++ data)).toNat = sum⟩

def write (tag : List UInt8) (data : ByteArray) : ByteArray :=
  let body := tag.toByteArray ++ data
  (bigEndian 4 data.size).toByteArray ++ body ++ (bigEndian 4 (redundancy body).toNat).toByteArray

end Chunk

/-- The data of each of the chunks with one tag that follow each other, up to a chunk with another tag,
of which only the tag is looked at. -/
def parts? (bytes : ByteArray) (tag : List UInt8) : Nat → Nat → Option (List ByteArray)
  | 0, _ => none
  | fuel + 1, start => do
      let found ← slice? bytes (start + 4) 4
      if found.toList ≠ tag then some []
      else do
        let chunk ← Chunk.at? bytes start
        if chunk.intact then do
          let others ← parts? bytes tag fuel (start + chunk.size)
          some (chunk.data :: others)
        else none

end PaperFolding.Raster.Png
