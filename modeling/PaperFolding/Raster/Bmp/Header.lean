import PaperFolding.Paper.Color
import PaperFolding.Raster.Bmp.Channel
import PaperFolding.Raster.Field

/-!
How the pixels of a BMP file are laid out.
-/

namespace PaperFolding.Raster.Bmp

def signature : List UInt8 := [0x42, 0x4D]

def infoStart : Nat := 14

def signBit : Nat := 0x80000000

/-- Neither the width of a picture nor its height upwards is greater than this. -/
def sideLimit : Nat := 65535

inductive Coding where
  | indexed
  | runs
  | direct (channels : Channels)
deriving DecidableEq, Repr

structure Header where
  start : Nat
  width : Nat
  height : Nat
  downwards : Bool
  depth : Nat
  coding : Coding
  infoSize : Nat
  entrySize : Nat
  /-- The number of colors in the palette; zero if it has as many as there can be. -/
  colors : Nat
deriving Repr

def rowSize (width depth : Nat) : Nat := (width * depth + 31) / 32 * 4

def coding? (bytes : ByteArray) (infoSize depth : Nat) : Nat → Option Coding
  | 0 =>
      match depth with
      | 1 | 2 | 4 | 8 => some .indexed
      | 16 => some (.direct .fives)
      | 24 | 32 => some (.direct .eights)
      | _ => none
  | 1 => if depth = 8 then some .runs else none
  | 2 => if depth = 4 then some .runs else none
  | 3 => do
      if depth ≠ 16 ∧ depth ≠ 32 then none
      let red ← littleEndian? bytes 54 4
      let green ← littleEndian? bytes 58 4
      let blueness ← littleEndian? bytes 62 4
      let opacity ← if infoSize < 56 then some 0 else littleEndian? bytes 66 4
      return .direct (← Channels.ofMasks? depth red green blueness opacity)
  | _ => none

namespace Header

def early? (bytes : ByteArray) (start : Nat) : Option Header := do
  let width ← littleEndian? bytes 18 2
  let height ← littleEndian? bytes 20 2
  let planes ← littleEndian? bytes 22 2
  let depth ← littleEndian? bytes 24 2
  if planes ≠ 1 then none
  let coding ←
    match depth with
    | 1 | 4 | 8 => some Coding.indexed
    | 24 => some (Coding.direct .eights)
    | _ => none
  some ⟨start, width, height, false, depth, coding, 12, 3, 0⟩

/-- The header of later versions. Rows that go downwards have no runs. -/
def late? (bytes : ByteArray) (start infoSize : Nat) : Option Header := do
  let width ← littleEndian? bytes 18 4
  let rawHeight ← littleEndian? bytes 22 4
  let planes ← littleEndian? bytes 26 2
  let depth ← littleEndian? bytes 28 2
  let compression ← littleEndian? bytes 30 4
  let colors ← littleEndian? bytes 46 4
  let _ ← littleEndian? bytes 50 4
  let downwards := signBit ≤ rawHeight
  let height := if downwards then 2 * signBit - rawHeight else rawHeight
  if planes ≠ 1 ∨ sideLimit < width ∨ rawHeight = signBit then none
  if !downwards ∧ sideLimit < height then none
  let coding ← coding? bytes infoSize depth compression
  if downwards ∧ coding = .runs then none
  some ⟨start, width, height, downwards, depth, coding, infoSize, 4, colors⟩

def read? (bytes : ByteArray) : Option Header := do
  if !hasTag bytes 0 signature then none
  let start ← littleEndian? bytes 10 4
  let infoSize ← littleEndian? bytes infoStart 4
  if infoSize = 12 then early? bytes start
  else if infoSize ∈ [40, 52, 56, 108, 124] then late? bytes start infoSize
  else none

def palette? (header : Header) (bytes : ByteArray) : Option ByteArray :=
  match header.coding with
  | .direct _ => some ByteArray.empty
  | .indexed | .runs =>
      let most := Nat.pow 2 header.depth
      if header.colors ≤ most then
        slice? bytes (infoStart + header.infoSize)
          ((if header.colors = 0 then most else header.colors) * header.entrySize)
      else none

/-- A color of the palette; numbers that have no color are black. -/
def entry (header : Header) (palette : ByteArray) (number : Nat) : Color :=
  let part (i : Nat) : Nat := (palette[header.entrySize * number + i]?.getD 0).toNat
  .ofChannels (part 2) (part 1) (part 0)

end Header

end PaperFolding.Raster.Bmp
