import PaperFolding.Paper.Color
import PaperFolding.Geometry.Outline

/-!
Pictures by their rows of opaque pixels, and the flat picture of a sheet.
-/

namespace PaperFolding

structure Picture where
  width : Nat
  height : Nat
  pixels : Array Color
deriving DecidableEq, Repr

namespace Picture

def memoryLimit : Nat := 536870912

def isAffordable (width height pixelSize : Nat) : Bool :=
  width * height * pixelSize ≤ memoryLimit

def white : Color := ⟨0xFFFFFF⟩

def sample (corner : Planar) (scale : Coordinate) (column row : Nat) : Planar :=
  ⟨corner.x + (Coordinate.ofNat column + Coordinate.ofPlaces 5 1) / scale,
    corner.y + (Coordinate.ofNat row + Coordinate.ofPlaces 5 1) / scale⟩

def ofOutline (outline : Outline) (color : Color) (side : Nat) : Picture :=
  let (low, high) := outline.box
  let extent := (high.x - low.x).max (high.y - low.y)
  if outline.length < 3 || extent.le .zero then
    ⟨side, side, Array.replicate (side * side) white⟩
  else
    let scale := Coordinate.ofNat side / extent
    ⟨side, side, Array.ofFn (n := side * side) fun place =>
      if outline.holds (sample low scale (place % side) (place / side)) then color else white⟩

def runs (picture : Picture) : List (Nat × Color) :=
  picture.pixels.toList.foldr (fun color built =>
    match built with
    | (count, next) :: rest =>
        if next = color then (count + 1, next) :: rest else (1, color) :: (count, next) :: rest
    | [] => [(1, color)]) []

end Picture

end PaperFolding
