import PaperFolding.Access
import PaperFolding.Files.Error
import PaperFolding.Json.Value
import PaperFolding.Paper.Encoding
import PaperFolding.Paper.Ledger

/-!
Why a statement fails, and how that is told.
-/

namespace PaperFolding

inductive Requirement where
  | plane (word : String)
  | angle
  | paper (word : String)
  | paperToMapOnto (word : String)
  | filename (word : String)
  | title (word : String)
  | undoableFold
deriving DecidableEq, Repr

def Requirement.message : Requirement → String
  | plane word => "`" ++ word ++ "` needs a plane point and normal"
  | angle => "`rotate` needs an angle"
  | paper word => "`" ++ word ++ "` needs paper; create it with `new` first"
  | paperToMapOnto word =>
      "`" ++ word ++ "` with paper coordinates needs paper to map them onto"
  | filename word => "`" ++ word ++ "` needs a filename"
  | title word => "`" ++ word ++ "` needs a title"
  | undoableFold => "nothing left to undo"

inductive Unbuildable where
  | nothingStaged
  | noArea (corners : Nat)
  | refused (refusal : Refusal)
deriving DecidableEq, Repr

def Unbuildable.message : Unbuildable → String
  | nothingStaged => "no paper preset or corners staged"
  | noArea corners => toString corners ++ " corner(s) enclose no area"
  | refused refusal => "model error: " ++ refusal.message

inductive Unwritable where
  | foreignSheet
  | noEncoder (encoding : Encoding)
  | noPictureFormat
  | unencodable
  | file (error : FileError)
deriving DecidableEq, Repr

def Unwritable.message : Unwritable → String
  | foreignSheet => "only ledger models can be archived"
  | noEncoder encoding => "the ledger backend has no " ++ encoding.label ++ " encoder"
  | noPictureFormat => "no picture format has this name"
  | unencodable => "the picture cannot be encoded in this format"
  | file error => error.message

inductive FileFault where
  | file (error : FileError)
  | texture (path : String) (error : FileError)
  | unreadablePicture (path : String)
deriving DecidableEq, Repr

def FileFault.message : FileFault → String
  | file error => error.message
  | texture path error => path ++ ": " ++ error.message
  | unreadablePicture path => path ++ ": the picture cannot be read"

inductive Fault where
  | malformed (word : String)
  | degenerate (cause : Degeneracy)
  | unknownPreset (tag : String)
  | missing (requirement : Requirement)
  | access (required current : Level)
  | translucentTexture (path : String)
  | unbuildable (cause : Unbuildable)
  | sheet (cause : Refusal)
  | unwritable (encoding : Encoding) (cause : Unwritable)
  | file (cause : FileFault)
  | settings
  | cancelled
  | nestedTooDeep
deriving DecidableEq, Repr

namespace Fault

def message : Fault → String
  | malformed word => "malformed arguments for `" ++ word ++ "`"
  | degenerate cause => "degenerate geometry: " ++ cause.message
  | unknownPreset tag => "unknown paper preset `" ++ tag ++ "`"
  | missing requirement => "missing precondition: " ++ requirement.message
  | access required current =>
      "insufficient access: requires " ++ required.label ++ ", current level is " ++ current.label
  | translucentTexture path =>
      "texture `" ++ path ++ "` has an alpha channel, which the paper cannot carry"
  | unbuildable cause => "cannot construct paper: " ++ cause.message
  | sheet cause => "model error: " ++ cause.message
  | unwritable encoding cause => "export to " ++ encoding.label ++ " failed: " ++ cause.message
  | file cause => "I/O error: " ++ cause.message
  | settings => "configuration error: the settings cannot be read"
  | cancelled => "execution cancelled"
  | nestedTooDeep => "scripts are nested too deep"

def code : Fault → String
  | malformed _ => "MalformedArguments"
  | degenerate _ => "DegenerateGeometry"
  | unknownPreset _ => "UnknownPreset"
  | missing _ => "MissingPrecondition"
  | access _ _ => "InsufficientAccess"
  | translucentTexture _ => "UnsupportedTexture"
  | unbuildable _ => "ModelConstructionFailure"
  | sheet _ => "Model"
  | unwritable _ _ => "Export"
  | file _ => "Io"
  | settings => "Config"
  | cancelled => "Cancelled"
  | nestedTooDeep => "Nesting"

def detail : Fault → List (String × String)
  | malformed word => [("keyword", word)]
  | degenerate cause => [("what", cause.message)]
  | unknownPreset tag => [("tag", tag)]
  | missing requirement => [("what", requirement.message)]
  | access required current => [("current", current.slug), ("required", required.slug)]
  | translucentTexture path => [("path", path)]
  | unbuildable cause => [("reason", cause.message)]
  | sheet cause => [("message", cause.message)]
  | unwritable encoding cause => [("format", encoding.label), ("message", cause.message)]
  | file cause => [("message", cause.message)]
  | settings => [("message", "the settings cannot be read")]
  | cancelled => []
  | nestedTooDeep => []

def json (fault : Fault) : Json :=
  .record (("code", .string fault.code) ::
    (if fault.detail.isEmpty then []
      else [("detail", .record (fault.detail.map fun (name, text) => (name, .string text)))]))

end Fault

end PaperFolding
