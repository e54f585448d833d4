import PaperFolding.Geometry.Vector

/-!
Outlines of sheets: the convex hull of corners, its edges, its area, and the points it contains.
-/

namespace PaperFolding

/-- The corners of a sheet in order, counter-clockwise when it was built from corners. -/
abbrev Outline := List Planar

namespace Outline

def before (a b : Planar) : Bool :=
  a.x.rank < b.x.rank || (a.x.rank = b.x.rank && a.y.rank ≤ b.y.rank)

def insert (p : Planar) : List Planar → List Planar
  | [] => [p]
  | q :: corners => if before p q then p :: q :: corners else q :: insert p corners

def sort (corners : List Planar) : List Planar := corners.foldr insert []

/-- Drops each corner equal by value to the one kept last. -/
def distinctAfter (last : Planar) : List Planar → List Planar
  | [] => []
  | p :: corners =>
      if last.same p then distinctAfter last corners else p :: distinctAfter p corners

def distinct : List Planar → List Planar
  | [] => []
  | p :: corners => p :: distinctAfter p corners

/-- Takes corners off a chain, last corner first, until the way on to `p` turns to the left. -/
def settle (p : Planar) : List Planar → List Planar
  | a :: o :: chain =>
      if Coordinate.zero.lt ((a - o).turn (p - o)) then a :: o :: chain else settle p (o :: chain)
  | chain => chain

def chain (corners : List Planar) : List Planar :=
  corners.foldl (fun built p => p :: settle p built) []

def hull (corners : List Planar) : Outline :=
  let ordered := distinct (sort corners)
  if ordered.length < 3 then ordered
  else (chain ordered).tail.reverse ++ (chain ordered.reverse).tail.reverse

def edges (outline : Outline) : List (Planar × Planar) :=
  outline.zip (outline.tail ++ outline.take 1)

def holds (outline : Outline) (p : Planar) : Bool :=
  outline.edges.all fun (a, b) => Coordinate.zero.le ((b - a).turn (p - a))

def twiceArea (outline : Outline) : Coordinate :=
  outline.edges.foldl (fun sum (a, b) => sum + a.turn b) Coordinate.zero

def area (outline : Outline) : Coordinate := outline.twiceArea.abs / Coordinate.ofNat 2

def enclosesArea (outline : Outline) : Bool :=
  3 ≤ outline.length && !outline.area.same Coordinate.zero

def box (outline : Outline) : Planar × Planar :=
  outline.foldl (fun (low, high) p => (low.min p, high.max p))
    (⟨.greatest, .greatest⟩, ⟨.least, .least⟩)

end Outline

end PaperFolding
