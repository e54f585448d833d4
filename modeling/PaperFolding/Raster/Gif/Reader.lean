import PaperFolding.Raster.Gif.Block
import PaperFolding.Raster.Gif.Words
import PaperFolding.Raster.Picture

/-!
Pictures read from GIF files: the first frame of a file, laid on a black screen.
-/

namespace PaperFolding.Raster.Gif

structure Screen where
  width : Nat
  height : Nat
  table : ByteArray

structure Frame where
  left : Nat
  top : Nat
  width : Nat
  height : Nat
  interlaced : Bool
  table : ByteArray
  symbols : Array Nat

def color (table : ByteArray) (symbol : Nat) : Color :=
  let entry (i : Nat) : Nat := (table[3 * symbol + i]?.getD 0).toNat
  .ofChannels (entry 0) (entry 1) (entry 2)

/-- The place of a row among the rows of an interlaced frame: first every eighth, then those halfway
between, then those between these, then the others. -/
def interlacedPlace (height row : Nat) : Nat :=
  let eighths := (height + 7) / 8
  let fourths := eighths + (height + 3) / 8
  let halves := fourths + (height + 1) / 4
  if row % 8 = 0 then row / 8
  else if row % 8 = 4 then eighths + row / 8
  else if row % 4 = 2 then fourths + row / 4
  else halves + row / 2

/-- The symbols of a frame. An empty frame is only read where it has no rows to bring in order. -/
def frameSymbols? (bytes : ByteArray) (width height : Nat) (interlaced : Bool) (start : Nat) :
    Option (Array Nat) := do
  if width * height = 0 then if interlaced ∧ height = 0 then some #[] else none
  else do
    let bits ← bigEndian? bytes start 1
    if bits = 0 ∨ wordLimit ≤ bits then none
    symbols? bits (width * height) (content bytes bytes.size (start + 1))

def frame? (bytes : ByteArray) (screen : Screen) (start : Nat) : Option Frame := do
  let left ← littleEndian? bytes start 2
  let top ← littleEndian? bytes (start + 2) 2
  let width ← littleEndian? bytes (start + 4) 2
  let height ← littleEndian? bytes (start + 6) 2
  let flags ← bigEndian? bytes (start + 8) 1
  let own ← slice? bytes (start + 9) (tableSize flags)
  let table := if own.isEmpty then screen.table else own
  if table.isEmpty then none
  let interlaced := flags / 64 % 2 = 1
  let symbols ← frameSymbols? bytes width height interlaced (start + 9 + tableSize flags)
  some ⟨left, top, width, height, interlaced, table, symbols⟩

/-- Skips extensions up to the first frame. What controls a frame has one block of four bytes, which
more blocks may follow. -/
def firstFrame? (bytes : ByteArray) (screen : Screen) : Nat → Nat → Option Frame
  | 0, _ => none
  | fuel + 1, start => do
      let mark ← bytes[start]?
      if mark = imageMark then frame? bytes screen (start + 1)
      else if mark = extensionMark then do
        let label ← bytes[start + 1]?
        let size ← bytes[start + 2]?
        if label ∉ labels ∨ (label = controlLabel ∧ size ≠ 4) then none
        let next ← skipBlocks? bytes bytes.size (start + 2)
        firstFrame? bytes screen fuel next
      else none

def Frame.colorAt (frame : Frame) (column row : Nat) : Color :=
  if frame.left ≤ column ∧ column < frame.left + frame.width ∧
      frame.top ≤ row ∧ row < frame.top + frame.height then
    let line := row - frame.top
    let place := if frame.interlaced then interlacedPlace frame.height line else line
    match frame.symbols[place * frame.width + (column - frame.left)]? with
    | some symbol => color frame.table symbol
    | none => ⟨0⟩
  else ⟨0⟩

def read? (bytes : ByteArray) : Option Picture := do
  if !hasTag bytes 0 signature && !hasTag bytes 0 earlySignature then none
  let width ← littleEndian? bytes 6 2
  let height ← littleEndian? bytes 8 2
  let flags ← bigEndian? bytes 10 1
  let table ← slice? bytes 13 (tableSize flags)
  if !Picture.isAffordable width height 4 then none
  let frame ← firstFrame? bytes ⟨width, height, table⟩ bytes.size (13 + tableSize flags)
  some ⟨width, height, Array.ofFn (n := width * height) fun place =>
    frame.colorAt (place % width) (place / width)⟩

end PaperFolding.Raster.Gif
