import PaperFolding.Session.Rebase
import PaperFolding.Session.Sheet

/-!
Commands that run no scripts: making, folding and opening paper, textures, documents, diagnostics and
elevation.
-/

namespace PaperFolding.Session

def cornerConstruction (corners : List Planar) : String :=
  String.join (corners.map fun corner =>
    "corner [" ++ corner.x.text ++ " " ++ corner.y.text ++ "] ") ++ "new"

def presetConstruction (preset : Preset) : String := "paper [" ++ preset.tag ++ "] new"

/-- The sheet that the stage asks for, and how a script would ask for it. -/
def stagedSheet (stage : Stage) : Action (Ledger × String) :=
  match stage.preset with
  | some preset => do
      note (.preset preset)
      pure ((← get).engine.fromPreset preset, presetConstruction preset)
  | none => do
      note (.corners stage.corners)
      let ledger ← lift (((← get).engine.fromCorners stage.corners).mapError Fault.unbuildable)
      pure (ledger, cornerConstruction stage.corners)

def makePaper (scope : Scope) (rest : List String) : Action Unit := do
  let stage := (← get).stage
  refuseIf (!stage.hasPaper) (.unbuildable .nothingStaged)
  let (ledger, construction) ← stagedSheet stage
  replacePaper ledger
  rebase scope construction rest
  clearStage

/-- The region a fold is restricted to. A target is first creased along the plane. -/
def restriction (word : String) (plane : Plane) : Action (Option UInt64) := do
  match (← get).stage.target with
  | none => pure none
  | some target => do
      operate word ⟨.crease, plane, none⟩
      some <$> regionAt word target

def foldAlong (word : String) (plane : Plane) (operation : Operation) : Action Unit := do
  let region ← restriction word plane
  operate word ⟨operation, plane, region⟩
  clearStage

def rotate : Action Unit := do
  let stage := (← get).stage
  let plane ← lift (stage.planeFor Command.rotate.name)
  let angle ← lift stage.foldAngle
  foldAlong Command.rotate.name plane (.rotate angle)

def reflect : Action Unit := do
  let plane ← lift ((← get).stage.planeFor Command.reflect.name)
  foldAlong Command.reflect.name plane .reflect

def cut : Action Unit := do
  let plane ← lift ((← get).stage.planeFor Command.cut.name)
  foldAlong Command.cut.name plane .cut

def redo : Action Unit := do
  redoSheet Command.redo.name
  clearStage

def undoOr (otherwise : Action Unit) : Action Unit := do
  let ready := 0 < (← get).depth.getD 0
  (if ready then undoSheet Command.undo.name else otherwise)
  clearStage

def reopen (scope : Scope) (rest : List String) : Action Unit := do
  let path ← requiredFilename Command.reopen.name
  note (.archive path)
  let archive ← lift ((← get).engine.openArchive (← get).world.files path)
  modify fun session =>
    { session with color := archive.color.getD session.settings.resetColor }
  replacePaper archive.ledger
  rebase scope ("filename [" ++ path ++ "] open") rest

def loadTexture : Action Unit := do
  let path ← requiredFilename Command.loadTexture.name
  let picture ← lift (Picture.openTexture (← get).world.files path)
  modify fun session => { session with texture := picture }

def unloadTexture : Action Unit := modify fun session => { session with texture := none }

/-- Bundles and archives keep no color while the paper has the standard one. -/
def documentColor (session : Session) (encoding : Encoding) : Option Color :=
  if (encoding = .bundle ∨ encoding = .archive) ∧ session.color = session.settings.resetColor then
    none
  else some session.color

def writeDocument (encoding : Encoding) : Action Unit := do
  let word := (Command.write encoding).name
  let path ← requiredFilename word
  let session ← get
  refuseIf (session.world.files.has path && session.access < Level.root)
    (.access .root session.access)
  refuseIf (encoding = .instructions && session.stage.title.isNone) (.missing (.title word))
  let ledger ← paper word
  let document : Document :=
    { encoding
      path
      color := session.documentColor encoding
      title := session.stage.title
      hasTexture := session.texture.isSome
      frameSize := session.settings.frameSize
      direction := session.camera.direction }
  note (.write document)
  withFiles fun files => session.engine.write files ledger document
  clearStage

def planarLine (point : Planar) : String := point.x.text ++ " " ++ point.y.text

def report (ledger : Ledger) : List String :=
  ["vertices: " ++ toString ledger.outline.length, "polygons: " ++ toString ledger.regions.length] ++
    ledger.outline.zipIdx.map (fun (point, place) =>
      "planar vertex " ++ toString place ++ ": " ++ planarLine point) ++
    ledger.regions.zipIdx.map (fun (region, place) =>
      "polygon " ++ toString place ++ ": " ++ String.intercalate " " (region.map toString)) ++
    ["corners:"] ++ ledger.outline.map planarLine

def diagnose : Action Unit := do
  let ledger ← paper Command.diagnose.name
  modify fun session => { session with transcript := session.transcript ++ report ledger }

def elevate (request : Elevation) : Action Unit :=
  modify fun session =>
    if request.level ≤ session.access then session
    else
      let (granted, operator) := session.world.operator.confirm request
      { session with
        access := if granted then request.level else session.access
        world := { session.world with operator } }

end PaperFolding.Session
