import PaperFolding.Script.Argument
import PaperFolding.Script.Token
import PaperFolding.Session.Basic

/-!
Parameters: each reads all its arguments, which gives one setting, before it changes anything.
-/

namespace PaperFolding

inductive Setting where
  | plane (plane : Plane)
  | point (point : Spatial)
  | normal (normal : Spatial)
  | target (point : Planar)
  | angle (degrees : Int32)
  | corners (corners : List Planar)
  | preset (preset : Preset)
  | corner (corner : Planar)
  | title (title : String)
  | locale (locale : Locale)
  | filename (path : String)
  | camera (camera : Camera)
  | color (color : Color)
  | uncolor
deriving DecidableEq

namespace Setting

def onStage (stage : Stage) : Setting → Stage
  | .plane along => stage.withPlane along
  | .point here => { stage with point := here }
  | .normal across => { stage with normal := across }
  | .target here => { stage with target := here }
  | .angle degrees => { stage with angle := degrees }
  | .corners all => { stage with corners := all, preset := none }
  | .preset sheet => { stage with preset := sheet }
  | .corner next => { stage with corners := stage.corners ++ [next] }
  | .title text => { stage with title := text }
  | .locale _ | .filename _ | .camera _ | .color _ | .uncolor => stage

def apply (session : Session) : Setting → Session
  | .locale place => { session with locale := place }
  | .filename path => { session with filename := path }
  | .camera view => { session with camera := view }
  | .color tint => { session with color := tint }
  | .uncolor => { session with color := session.settings.resetColor }
  | setting => { session with stage := setting.onStage session.stage }

theorem stage_apply (setting : Setting) (session : Session) :
    (setting.apply session).stage = setting.onStage session.stage := by
  cases setting <;> rfl

end Setting

abbrev Placing := Planar → Option Spatial

def Session.placing (session : Session) : Placing := fun point =>
  session.model.map fun ledger => session.engine.place ledger point

namespace Parameter

def malformed {α : Type} (parameter : Parameter) : Except Fault α :=
  .error (.malformed parameter.name)

def reading {α : Type} (parameter : Parameter) (value : Option α) : Except Fault α :=
  match value with
  | some value => .ok value
  | none => parameter.malformed

def resolve (parameter : Parameter) (placing : Placing) (argument : String) :
    Except Fault Spatial := do
  match ← parameter.reading (Script.point? argument) with
  | .spatial point => pure point
  | .planar point =>
      match placing point with
      | some point => pure point
      | none => throw (.missing (.paperToMapOnto parameter.name))

def planeOf (plane : Except Degeneracy Plane) : Except Fault Setting :=
  match plane with
  | .ok plane => .ok (.plane plane)
  | .error cause => .error (.degenerate cause)

/-- Four numbers are two opposite corners of a rectangle; one word is the name of a sheet. -/
def sheetOf (parameter : Parameter) (argument : String) : Except Fault Setting := do
  match (Script.words argument).length with
  | 4 =>
      match ← parameter.reading (Script.numbers? argument) with
      | [x, y, x', y'] => pure (.corners (Stage.rectangle ⟨x, y⟩ ⟨x', y'⟩))
      | _ => parameter.malformed
  | 1 =>
      match Preset.ofTag? argument with
      | some preset => pure (.preset preset)
      | none => throw (.unknownPreset argument)
  | _ => parameter.malformed

def colorOf (parameter : Parameter) (argument : String) : Except Fault Setting := do
  match ← parameter.reading (Script.integers? argument) with
  | [packed] => pure (.color (.ofPacked packed))
  | [red, green, blue] => pure (.color (.ofChannels red green blue))
  | _ => parameter.malformed

def localeOf (parameter : Parameter) (argument : String) : Except Fault Setting :=
  match Script.words argument with
  | [language, country] =>
      .ok (.locale ⟨String.ofList language, String.ofList country⟩)
  | _ => parameter.malformed

def setting (parameter : Parameter) (placing : Placing) (arguments : List String) :
    Except Fault Setting :=
  match parameter, arguments with
  | .plane, [point, normal] => do
      let point ← parameter.resolve placing point
      let normal ← parameter.reading (Script.spatial? normal)
      pure (.plane ⟨point, normal⟩)
  | .planeThrough, [a, b, c] => do
      let a ← parameter.resolve placing a
      let b ← parameter.resolve placing b
      let c ← parameter.resolve placing c
      planeOf (Plane.through a b c)
  | .angleBisector, [a, vertex, b] => do
      let a ← parameter.resolve placing a
      let vertex ← parameter.resolve placing vertex
      let b ← parameter.resolve placing b
      planeOf (Plane.bisecting a vertex b)
  | .planePoint, [point] => do
      let point ← parameter.resolve placing point
      pure (.point point)
  | .planeNormal, [normal] => do
      let normal ← parameter.reading (Script.spatial? normal)
      pure (.normal normal)
  | .target, [point] => do
      let point ← parameter.reading (Script.planar? point)
      pure (.target point)
  | .angle, [degrees] => do
      let degrees ← parameter.reading (Script.degrees? degrees)
      pure (.angle degrees)
  | .paper, [sheet] => parameter.sheetOf sheet
  | .corner, [point] => do
      let point ← parameter.reading (Script.planar? point)
      pure (.corner point)
  | .locale, [argument] => parameter.localeOf argument
  | .filename, [path] => if path.isEmpty then parameter.malformed else pure (.filename path)
  | .title, [argument] => pure (.title argument)
  | .camera, [direction, xAxis, yAxis] => do
      let direction ← parameter.reading (Script.spatial? direction)
      let xAxis ← parameter.reading (Script.spatial? xAxis)
      let yAxis ← parameter.reading (Script.spatial? yAxis)
      pure (.camera ⟨direction, xAxis, yAxis⟩)
  | .color, [argument] => parameter.colorOf argument
  | .uncolor, [] => pure .uncolor
  | _, _ => parameter.malformed

def obey (parameter : Parameter) (arguments : List String) : Action Unit := do
  let setting ← Session.lift (parameter.setting (← get).placing arguments)
  modify setting.apply

theorem on_obey (parameter : Parameter) (arguments : List String) (session : Session) :
    (parameter.obey arguments).on session =
      match parameter.setting session.placing arguments with
      | .ok setting => (.ok (), setting.apply session)
      | .error fault => (.error fault, session) := by
  simp only [obey, Action.on_bind, Action.on_get, Session.on_lift]
  cases parameter.setting session.placing arguments <;> rfl

end Parameter

end PaperFolding
