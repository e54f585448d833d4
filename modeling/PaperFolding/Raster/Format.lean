import PaperFolding.Fault
import PaperFolding.Files.Tree
import PaperFolding.Raster.Bmp.Reader
import PaperFolding.Raster.Bmp.Writer
import PaperFolding.Raster.Gif.Reader
import PaperFolding.Raster.Gif.Writer
import PaperFolding.Raster.Png.Reader
import PaperFolding.Raster.Png.Writer

/-!
Picture files: the format that a name asks for, pictures read as textures, and pictures written.
-/

namespace PaperFolding

inductive PictureFormat where
  | png
  | bmp
  | gif
  | jpeg
  | foreign
deriving DecidableEq, Repr

namespace PictureFormat

def foreignExtensions : List String :=
  ["avif", "webp", "tif", "tiff", "tga", "dds", "ico", "hdr", "exr", "pbm",
    "pam", "ppm", "pgm", "pnm", "ff", "qoi"]

def ofExtension? (extension : String) : Option PictureFormat :=
  let extension := String.ofList (extension.toList.map Char.toLower)
  if extension = "png" ∨ extension = "apng" then some png
  else if extension = "bmp" then some bmp
  else if extension = "gif" then some gif
  else if extension = "jpg" ∨ extension = "jpeg" ∨ extension = "jfif" then some jpeg
  else if extension ∈ foreignExtensions then some foreign
  else none

def ofPath? (path : String) : Option PictureFormat :=
  (Path.extension? path).bind ofExtension?

/-- The picture in a file, and whether it can be seen through. -/
def read? (format : PictureFormat) (codec : Jpeg) (content : ByteArray) : Option (Picture × Bool) :=
  match format with
  | png => Raster.Png.read? content
  | bmp => Raster.Bmp.read? content
  | gif => (Raster.Gif.read? content).map fun picture => (picture, true)
  | jpeg => (codec.read? content).map fun picture => (picture, false)
  | foreign => none

/-- The file for a picture, or what there is of it when it cannot be written in this format. -/
def write (format : PictureFormat) (codec : Jpeg) (picture : Picture) :
    Except ByteArray ByteArray :=
  match format with
  | png =>
      if picture.pixels.isEmpty then .error Raster.Png.ending else .ok (Raster.Png.write picture)
  | bmp => .ok (Raster.Bmp.write picture)
  | gif => .ok (Raster.Gif.write picture)
  | jpeg => codec.write picture
  | foreign => .error ByteArray.empty

end PictureFormat

namespace Picture

def ofContent? (content : ByteArray) : Option Picture :=
  ([PictureFormat.png, .gif, .bmp].findSome? fun format => format.read? .absent content).map
    fun found => found.1

def openTexture (files : FileTree) (path : String) : Except Fault Picture :=
  match files.lookup path, PictureFormat.ofPath? path with
  | .error error, _ => .error (.file (.texture path error))
  | .ok _, none | .ok _, some .foreign => .error (.file (.unreadablePicture path))
  | .ok .directory, some _ => .error (.file (.texture path .isDirectory))
  | .ok (.file content), some format =>
      match format.read? files.host.jpeg content with
      | none => .error (.file (.unreadablePicture path))
      | some (_, true) => .error (.translucentTexture path)
      | some (picture, false) => .ok picture

/-- Writes a picture in the format that the name asks for. The file is made before the format is
tried, so a failure can leave it with less than a picture. -/
def save (files : FileTree) (path : String) (picture : Picture) :
    Except Unwritable Unit × FileTree :=
  match PictureFormat.ofPath? path with
  | none => (.error .noPictureFormat, files)
  | some format =>
      let (result, content) : Except Unwritable Unit × ByteArray :=
        match format.write files.host.jpeg picture with
        | .ok content => (.ok (), content)
        | .error content => (.error .unencodable, content)
      match files.write path content with
      | .error (error, left) => (.error (.file error), left)
      | .ok files => (result, files)

end Picture

end PaperFolding
