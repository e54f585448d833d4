import PaperFolding.Paper.Color
import PaperFolding.Raster.Field

/-!
Pixels stored as runs. A pen draws row after row; where it does not draw, the picture stays black.
-/

namespace PaperFolding.Raster.Bmp

inductive Stroke where
  /-- Pixels of one color or of two in turn; those beyond the end of the row are dropped. -/
  | run (numbers : List Nat)
  /-- Pixels one by one, which do not go beyond the end of the row. -/
  | pixels (numbers : List Nat)
  | nextRow
  | move (right onward : Nat)
  | finish
deriving DecidableEq, Repr

def numbersIn (depth : Nat) (bytes : List UInt8) : List Nat :=
  if depth = 4 then bytes.flatMap fun byte => [byte.toNat / 16, byte.toNat % 16]
  else bytes.map UInt8.toNat

def stroke? (depth : Nat) (bytes : ByteArray) (place : Nat) : Option (Stroke × Nat) := do
  let count ← bigEndian? bytes place 1
  let code ← bigEndian? bytes (place + 1) 1
  if 0 < count then
    some (.run ((numbersIn depth (List.replicate count (UInt8.ofNat code))).take count), place + 2)
  else
    match code with
    | 0 => some (.nextRow, place + 2)
    | 1 => some (.finish, place + 2)
    | 2 => do
        let right ← bigEndian? bytes (place + 2) 1
        let onward ← bigEndian? bytes (place + 3) 1
        some (.move right onward, place + 4)
    | _ => do
        let size := (code * depth + 15) / 16 * 2
        let content ← slice? bytes (place + 2) size
        some (.pixels ((numbersIn depth content.toList).take code), place + 2 + size)

structure Pen where
  column : Nat
  row : Nat
  pixels : Array Color

namespace Pen

def draw (width : Nat) (pen : Pen) (colors : List Color) : Pen :=
  { pen with
    column := pen.column + colors.length
    pixels := colors.zipIdx.foldl (fun pixels (color, place) =>
      pixels.setIfInBounds (pen.row * width + pen.column + place) color) pen.pixels }

def follow? (color : Nat → Color) (width height depth : Nat) (bytes : ByteArray) :
    Nat → Nat → Pen → Option (Array Color)
  | 0, _, _ => none
  | fuel + 1, place, pen =>
      if height ≤ pen.row then some pen.pixels
      else do
        let (stroke, place) ← stroke? depth bytes place
        let room := width - pen.column
        match stroke with
        | .finish => some pen.pixels
        | .nextRow =>
            follow? color width height depth bytes fuel place
              { pen with column := 0, row := pen.row + 1 }
        | .move right onward =>
            if right ≤ room ∧ pen.row + onward < height then
              follow? color width height depth bytes fuel place
                { pen with column := pen.column + right, row := pen.row + onward }
            else none
        | .run numbers =>
            follow? color width height depth bytes fuel place
              (pen.draw width ((numbers.take room).map color))
        | .pixels numbers =>
            if numbers.length ≤ room then
              follow? color width height depth bytes fuel place
                (pen.draw width (numbers.map color))
            else none

end Pen

end PaperFolding.Raster.Bmp
