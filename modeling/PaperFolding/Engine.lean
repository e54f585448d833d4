import PaperFolding.Access
import PaperFolding.Files.Tree
import PaperFolding.Fault
import PaperFolding.Paper.Archive
import PaperFolding.Raster.Format

/-!
The engine that makes, folds and writes sheets: what a session asks of it, the engine that keeps plain
ledgers, and engines that depart from that one in a few respects. The calls made to an engine are what
a supervisor can observe of a running statement.
-/

namespace PaperFolding

structure Document where
  encoding : Encoding
  path : String
  color : Option Color
  title : Option String
  hasTexture : Bool
  frameSize : UInt32
  direction : Spatial
deriving DecidableEq, Repr

inductive Call where
  | preset (preset : Preset)
  | corners (corners : List Planar)
  | archive (path : String)
  | operate (record : Record)
  | regionAt (point : Planar)
  | undo
  | redo
  | write (document : Document)
deriving DecidableEq, Repr

structure Engine where
  fromPreset : Preset → Ledger
  fromCorners : List Planar → Except Unbuildable Ledger
  apply : Ledger → Record → Except Refusal Ledger
  undo : Ledger → Except Refusal Ledger
  redo : Ledger → Except Refusal Ledger
  /-- The number of operations the engine is ready to take back. -/
  depth : Ledger → Nat
  regionAt : Ledger → Planar → Except Refusal UInt64
  place : Ledger → Planar → Spatial
  openArchive : FileTree → String → Except Fault Archive
  write : FileTree → Ledger → Document → Except Fault Unit × FileTree

namespace Engine

def openFile (files : FileTree) (path : String) : Except Fault Archive :=
  match files.readText path with
  | .error error => .error (.file (.file error))
  | .ok text => (Archive.read text).mapError Fault.sheet

def writeFile (files : FileTree) (path text : String) : Except Fault Unit × FileTree :=
  match files.writeText path text with
  | .error (error, left) => (.error (.file (.file error)), left)
  | .ok files => (.ok (), files)

def writeArchive (files : FileTree) (ledger : Ledger) (document : Document) :
    Except Fault Unit × FileTree :=
  writeFile files document.path (Archive.write ⟨document.color, ledger⟩)

def writePicture (files : FileTree) (ledger : Ledger) (document : Document) :
    Except Fault Unit × FileTree :=
  let color := document.color.getD .navy
  match Picture.save files document.path
      (Picture.ofOutline ledger.outline color document.frameSize.toNat) with
  | (.error cause, files) => (.error (.unwritable .picture cause), files)
  | (.ok (), files) => (.ok (), files)

/-- Writes a document; of the encodings only archives and flat pictures are at hand. -/
def writeDocument (files : FileTree) (ledger : Ledger) (document : Document) :
    Except Fault Unit × FileTree :=
  match document.encoding with
  | .archive => writeArchive files ledger document
  | .picture => writePicture files ledger document
  | encoding => (.error (.unwritable encoding (.noEncoder encoding)), files)

def plain : Engine where
  fromPreset := Ledger.ofPreset
  fromCorners corners :=
    match Ledger.ofCorners? corners with
    | some ledger => .ok ledger
    | none => .error (.noArea corners.length)
  apply := Ledger.apply
  undo := Ledger.undo
  redo := Ledger.redo
  depth := Ledger.depth
  regionAt := Ledger.regionAt
  place _ point := point.raise .zero
  openArchive := openFile
  write := writeDocument

structure Departure where
  /-- The engine takes back at most this many operations in a row. -/
  undoLimit : Option Nat
  hidesLedger : Bool
  cornerRefusal : Option String
  undoRefusal : Option String
  marksDocuments : Bool
  lift : Option Coordinate
  region : Option UInt64
deriving DecidableEq, Repr

namespace Departure

def none : Departure := ⟨.none, false, .none, .none, false, .none, .none⟩

def mark : String := "exported"

def depth (departure : Departure) (ledger : Ledger) : Nat :=
  match departure.undoLimit with
  | some limit => Nat.min ledger.depth limit
  | .none => ledger.depth

def write (departure : Departure) (files : FileTree) (ledger : Ledger) (document : Document) :
    Except Fault Unit × FileTree :=
  if departure.marksDocuments then writeFile files document.path mark
  else if departure.hidesLedger ∧ document.encoding = .archive then
    (.error (.unwritable .archive .foreignSheet), files)
  else writeDocument files ledger document

end Departure

def departing (departure : Departure) : Engine where
  fromPreset := plain.fromPreset
  fromCorners corners :=
    match departure.cornerRefusal with
    | some reason => .error (.refused (.other reason))
    | none => plain.fromCorners corners
  apply := plain.apply
  undo ledger :=
    match departure.undoRefusal with
    | some reason => .error (.other reason)
    | none => plain.undo ledger
  redo := plain.redo
  depth := departure.depth
  regionAt ledger point :=
    match departure.region with
    | some region => .ok region
    | none => plain.regionAt ledger point
  place ledger point :=
    let found := plain.place ledger point
    match departure.lift with
    | some height => { found with z := found.z + height }
    | none => found
  openArchive := plain.openArchive
  write := departure.write

def forgetful : Engine := departing { Departure.none with undoLimit := some 0 }

end Engine

end PaperFolding
