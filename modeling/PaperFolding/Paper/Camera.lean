import PaperFolding.Geometry.Vector

/-!
The direction from which the paper is seen.
-/

namespace PaperFolding

structure Camera where
  direction : Spatial
  xAxis : Spatial
  yAxis : Spatial
deriving DecidableEq, Repr

def Camera.initial : Camera := ⟨.zAxis, .xAxis, .yAxis⟩

end PaperFolding
