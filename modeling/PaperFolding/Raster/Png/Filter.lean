import PaperFolding.Raster.Field

/-!
Rows of a PNG file. Each follows a byte that names its filter; a filter stores what a byte differs
from what its neighbors make expect.
-/

namespace PaperFolding.Raster.Png

/-- Of three neighbors the one nearest to `left + above - corner`. -/
def nearestNeighbor (left above corner : Nat) : Nat :=
  let guess : Int := (left : Int) + above - corner
  let fromLeft := (guess - left).natAbs
  let fromAbove := (guess - above).natAbs
  let fromCorner := (guess - corner).natAbs
  if fromLeft ≤ fromAbove ∧ fromLeft ≤ fromCorner then left
  else if fromAbove ≤ fromCorner then above
  else corner

def expected? (filter left above corner : Nat) : Option Nat :=
  match filter with
  | 0 => some 0
  | 1 => some left
  | 2 => some above
  | 3 => some ((left + above) / 2)
  | 4 => some (nearestNeighbor left above corner)
  | _ => none

def unfilter? (filter step : Nat) (above row : ByteArray) : Option ByteArray :=
  let at_ (bytes : ByteArray) (place : Nat) : Nat := (bytes[place]?.getD 0).toNat
  (List.range row.size).foldlM (fun (built : ByteArray) place => do
    let left := if place < step then 0 else at_ built (place - step)
    let corner := if place < step then 0 else at_ above (place - step)
    let guess ← expected? filter left (at_ above place) corner
    some (built.push (UInt8.ofNat (at_ row place + guess)))) ByteArray.empty

/-- Rows of `size` bytes from a place on, given the row above the first. -/
def rows? (step size : Nat) (bytes : ByteArray) : Nat → Nat → ByteArray → Option (List ByteArray)
  | 0, _, _ => some []
  | count + 1, start, above => do
      let filter ← bigEndian? bytes start 1
      let row ← unfilter? filter step above (← slice? bytes (start + 1) size)
      let others ← rows? step size bytes count (start + 1 + size) row
      some (row :: others)

end PaperFolding.Raster.Png
