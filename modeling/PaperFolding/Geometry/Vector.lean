import PaperFolding.Coordinate

/-!
Points and directions in the plane of the paper and in space.
-/

namespace PaperFolding

structure Planar where
  x : Coordinate
  y : Coordinate
deriving DecidableEq, Repr, Inhabited

structure Spatial where
  x : Coordinate
  y : Coordinate
  z : Coordinate
deriving DecidableEq, Repr, Inhabited

namespace Planar

instance : Sub Planar := ⟨fun a b => ⟨a.x - b.x, a.y - b.y⟩⟩

/-- The area of the parallelogram on two directions, positive when the second lies to the left. -/
def turn (a b : Planar) : Coordinate := a.x * b.y - a.y * b.x

def same (a b : Planar) : Bool := a.x.same b.x && a.y.same b.y

def min (a b : Planar) : Planar := ⟨a.x.min b.x, a.y.min b.y⟩

def max (a b : Planar) : Planar := ⟨a.x.max b.x, a.y.max b.y⟩

def raise (a : Planar) (z : Coordinate) : Spatial := ⟨a.x, a.y, z⟩

end Planar

namespace Spatial

instance : Sub Spatial := ⟨fun a b => ⟨a.x - b.x, a.y - b.y, a.z - b.z⟩⟩

def scale (a : Spatial) (factor : Coordinate) : Spatial :=
  ⟨a.x * factor, a.y * factor, a.z * factor⟩

def cross (a b : Spatial) : Spatial :=
  ⟨a.y * b.z - b.y * a.z, a.z * b.x - b.z * a.x, a.x * b.y - b.x * a.y⟩

def length (a : Spatial) : Coordinate := (a.x * a.x + a.y * a.y + a.z * a.z).sqrt

/-- The length is zero, be it by rounding. -/
def vanishes (a : Spatial) : Bool := a.length.same Coordinate.zero

def xAxis : Spatial := ⟨.one, .zero, .zero⟩

def yAxis : Spatial := ⟨.zero, .one, .zero⟩

def zAxis : Spatial := ⟨.zero, .zero, .one⟩

end Spatial

end PaperFolding
