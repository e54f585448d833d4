import PaperFolding.Fault

/-!
The stage holds what parameters have prepared for the next command.
-/

namespace PaperFolding

structure Stage where
  point : Option Spatial
  normal : Option Spatial
  /-- A point of the paper; the next fold is restricted to the region it lies in. -/
  target : Option Planar
  angle : Option Int32
  corners : List Planar
  preset : Option Preset
  title : Option String
deriving DecidableEq, Repr

namespace Stage

def empty : Stage := ⟨none, none, none, none, [], none, none⟩

def withPlane (stage : Stage) (plane : Plane) : Stage :=
  { stage with point := plane.point, normal := plane.normal }

def planeFor (stage : Stage) (word : String) : Except Fault Plane :=
  match stage.point, stage.normal with
  | some point, some normal => .ok ⟨point, normal⟩
  | _, _ => .error (.missing (.plane word))

def foldAngle (stage : Stage) : Except Fault Int32 :=
  match stage.angle with
  | some angle => .ok angle
  | none => .error (.missing .angle)

def rectangle (a b : Planar) : List Planar :=
  [⟨a.x, a.y⟩, ⟨b.x, a.y⟩, ⟨b.x, b.y⟩, ⟨a.x, b.y⟩]

def hasPaper (stage : Stage) : Bool :=
  stage.preset.isSome || !stage.corners.isEmpty

end Stage

end PaperFolding
