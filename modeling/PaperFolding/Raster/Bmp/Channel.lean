/-!
The bits of a number that make up a part of a color.
-/

namespace PaperFolding.Raster.Bmp

structure Channel where
  shift : Nat
  width : Nat
deriving DecidableEq, Repr

namespace Channel

def ofMask? (depth mask : Nat) : Option Channel :=
  if mask = 0 then some ⟨0, 0⟩
  else do
    let shift ← (List.range depth).find? fun place => mask.testBit place
    let width ← (List.range (depth + 1)).find? fun count => !(mask >>> shift).testBit count
    if mask = (Nat.pow 2 width - 1) * Nat.pow 2 shift ∧ shift + width ≤ depth then
      some ⟨shift + (width - 8), Nat.min width 8⟩
    else none

def read (channel : Channel) (number : Nat) : Nat :=
  let top := Nat.pow 2 channel.width - 1
  (510 * ((number >>> channel.shift) % (top + 1)) + top) / (2 * top)

end Channel

structure Channels where
  red : Channel
  green : Channel
  blueness : Channel
  translucent : Bool
deriving DecidableEq, Repr

namespace Channels

def ofMasks? (depth red green blueness opacity : Nat) : Option Channels := do
  let _ ← Channel.ofMask? depth opacity
  if red = 0 ∨ green = 0 ∨ blueness = 0 then none
  some ⟨← Channel.ofMask? depth red, ← Channel.ofMask? depth green,
    ← Channel.ofMask? depth blueness, opacity ≠ 0⟩

def fives : Channels := ⟨⟨10, 5⟩, ⟨5, 5⟩, ⟨0, 5⟩, false⟩

def eights : Channels := ⟨⟨16, 8⟩, ⟨8, 8⟩, ⟨0, 8⟩, false⟩

end Channels

end PaperFolding.Raster.Bmp
