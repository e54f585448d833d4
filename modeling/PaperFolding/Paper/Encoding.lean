/-!
The forms in which a folded sheet can be written out.
-/

namespace PaperFolding

inductive Encoding where
  | mesh
  | instructions
  | animation
  | turntable
  | bundle
  | picture
  | archive
deriving DecidableEq, Repr

def Encoding.label : Encoding → String
  | mesh => "ctm"
  | instructions => "pdf"
  | animation => "gif"
  | turntable => "revolving gif"
  | bundle => "jar"
  | picture => "png"
  | archive => "ori"

end PaperFolding
