import PaperFolding.Raster.Field

/-!
The blocks of bytes that GIF files keep data in, and tables of colors.
-/

namespace PaperFolding.Raster.Gif

def signature : List UInt8 := [0x47, 0x49, 0x46, 0x38, 0x39, 0x61]

def earlySignature : List UInt8 := [0x47, 0x49, 0x46, 0x38, 0x37, 0x61]

def imageMark : UInt8 := 0x2C

def extensionMark : UInt8 := 0x21

def controlLabel : UInt8 := 0xF9

def labels : List UInt8 := [0x01, controlLabel, 0xFE, 0xFF]

def skipBlocks? (bytes : ByteArray) : Nat → Nat → Option Nat
  | 0, _ => none
  | fuel + 1, start => do
      let size ← bigEndian? bytes start 1
      if size = 0 then some (start + 1)
      else do
        let _ ← slice? bytes (start + 1) size
        skipBlocks? bytes fuel (start + 1 + size)

def content (bytes : ByteArray) : Nat → Nat → ByteArray
  | 0, _ => ByteArray.empty
  | fuel + 1, start =>
      match bigEndian? bytes start 1 with
      | none | some 0 => ByteArray.empty
      | some size =>
          bytes.extract (start + 1) (start + 1 + size) ++ content bytes fuel (start + 1 + size)

def blockBytes : Nat → List UInt8 → List UInt8
  | 0, _ => [0]
  | fuel + 1, data =>
      if data.isEmpty then [0]
      else
        let block := data.take 255
        UInt8.ofNat block.length :: block ++ blockBytes fuel (data.drop 255)

def tableSize (flags : Nat) : Nat :=
  if flags / 128 % 2 = 1 then 3 * Nat.pow 2 (flags % 8 + 1) else 0

end PaperFolding.Raster.Gif
