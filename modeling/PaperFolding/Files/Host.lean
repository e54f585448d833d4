import PaperFolding.Files.Error
import PaperFolding.Raster.Picture

/-!
The system below a tree of files. It may refuse to make a change that the tree itself allows, for want of
permission or of room, and it brings the reader and the writer of JPEG pictures.
-/

namespace PaperFolding

inductive Node where
  | file (content : ByteArray)
  | directory

-- Not derived, for there is more than one instance for byte arrays.
instance : DecidableEq Node
  | .file content, .file other =>
      match ByteArray.instDecidableEq content other with
      | isTrue same => isTrue (congrArg Node.file same)
      | isFalse differ => isFalse fun same => differ (Node.file.inj same)
  | .directory, .directory => isTrue rfl
  | .file _, .directory => isFalse fun same => Node.noConfusion same
  | .directory, .file _ => isFalse fun same => Node.noConfusion same

/-- The names from a place up to the root. -/
abbrev Place := List String

inductive Change where
  | write (place : Place) (content : ByteArray)
  | rename (source target : Place)
  | remove (place : Place)
  | makeDirectory (place : Place)

/-- What comes of a change. A write can break off when so many bytes are there; anything else that breaks
off leaves no trace. -/
inductive Response where
  | made
  | refused (error : FileError)
  | broken (size : Nat) (error : FileError)
deriving DecidableEq, Repr

structure Jpeg where
  read? : ByteArray → Option Picture
  /-- The file for a picture, or as much of it as was written before that failed. -/
  write : Picture → Except ByteArray ByteArray

def Jpeg.absent : Jpeg := ⟨fun _ => none, fun _ => .error ByteArray.empty⟩

structure Host where
  /-- The answer to a change may depend on all that the tree holds. -/
  answer : List (Place × Node) → Change → Response
  jpeg : Jpeg

namespace Host

/-- It makes every change, and knows nothing of JPEG. -/
def willing : Host := ⟨fun _ _ => .made, .absent⟩

end Host

end PaperFolding
