import PaperFolding.Geometry.Vector

/-!
Folding planes: through three points, or halving an angle.
-/

namespace PaperFolding

/-- A plane by one of its points and a direction at right angles to it, of any length. -/
structure Plane where
  point : Spatial
  normal : Spatial
deriving DecidableEq, Repr

inductive Degeneracy where
  | collinearPoints
  | emptyRay
  | noBisector
deriving DecidableEq, Repr

def Degeneracy.message : Degeneracy → String
  | collinearPoints => "the three points are collinear"
  | emptyRay => "an angle ray has zero length"
  | noBisector => "the angle has no bisector"

namespace Plane

def through (a b c : Spatial) : Except Degeneracy Plane :=
  let normal := (b - a).cross (c - a)
  if normal.vanishes then .error .collinearPoints else .ok ⟨a, normal⟩

/-- The length both rays of an angle are brought to before they are compared. -/
def rayLength : Coordinate := Coordinate.ofNat 100

def ray (direction : Spatial) : Except Degeneracy Spatial :=
  if direction.vanishes then .error .emptyRay
  else .ok (direction.scale (rayLength / direction.length))

def bisecting (a vertex b : Spatial) : Except Degeneracy Plane := do
  let rayA ← ray (a - vertex)
  let rayB ← ray (b - vertex)
  let normal := rayA - rayB
  if normal.vanishes then .error .noBisector else .ok ⟨vertex, normal⟩

end Plane

end PaperFolding
