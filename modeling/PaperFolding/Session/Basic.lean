import PaperFolding.Engine
import PaperFolding.Paper.Camera
import PaperFolding.Settings
import PaperFolding.Stage
import PaperFolding.Vocabulary.Keyword

/-!
A session: its paper, its appearance and its history, and the world it acts on. Actions change a
session and may fail; what they changed before they failed stays changed.
-/

namespace PaperFolding

/-- The supervisor of a running statement. -/
structure Watch where
  active : Bool
  /-- The call at which the time of the statement runs out next, if it does. -/
  gate : Option Nat
  choices : List Choice
  stopped : Bool
deriving DecidableEq, Repr

/-- What a session shares with the sandboxes it opens. -/
structure World where
  files : FileTree
  operator : Operator
  calls : List Call
  watch : Watch
  /-- The operator has chosen to wait for the running statement. -/
  extended : Bool

namespace World

def quiet (files : FileTree) (operator : Operator) : World :=
  ⟨files, operator, [], ⟨false, none, [], false⟩, false⟩

/-- The time of a statement under watch has run out. Once it is stopped, its time does not count. -/
def expires (world : World) : Bool :=
  world.watch.active && !world.watch.stopped && world.watch.gate = some world.calls.length

/-- Puts the question whether to stop, with the choice that is made and those that will be made later. -/
def ask (world : World) (choice : Choice) (choices : List Choice) : World :=
  let operator := { world.operator with
    asked := world.operator.asked ++ [.timeout world.extended] }
  match choice with
  | .stop => { world with operator, watch := { world.watch with choices, stopped := true } }
  | .wait calls =>
      { world with
        operator
        watch := { world.watch with choices, gate := calls.map (world.calls.length + ·) }
        extended := true }

/-- Asks as often as the time runs out during the call, and while there are choices left. -/
def consult (world : World) : List Choice → World
  | [] => world
  | choice :: choices => if world.expires then (world.ask choice choices).consult choices else world

def note (world : World) (call : Call) : World :=
  let consulted := world.consult world.watch.choices
  { consulted with calls := consulted.calls ++ [call] }

/-- A view that no question changes is the same after all of them. -/
theorem consult_view {α : Type} (view : World → α)
    (blind : ∀ world choice choices, view (ask world choice choices) = view world) (world : World)
    (choices : List Choice) : view (world.consult choices) = view world := by
  induction choices generalizing world with
  | nil => rfl
  | cons choice choices induction =>
      rw [consult]
      split
      · rw [induction, blind]
      · rfl

@[simp] theorem consult_calls (world : World) (choices : List Choice) :
    (world.consult choices).calls = world.calls :=
  consult_view World.calls (fun _ choice _ => by cases choice <;> rfl) world choices

theorem consult_of_unexpired {world : World} (runs : world.expires = false)
    (choices : List Choice) : world.consult choices = world := by
  cases choices with
  | nil => rfl
  | cons choice choices =>
      rw [consult, runs]
      rfl

theorem note_of_unexpired {world : World} (runs : world.expires = false) (call : Call) :
    world.note call = { world with calls := world.calls ++ [call] } := by
  rw [note, consult_of_unexpired runs]

theorem expires_of_inactive {world : World} (inactive : world.watch.active = false) :
    world.expires = false := by
  rw [expires, inactive]
  rfl

end World

structure Locale where
  language : String
  country : String
deriving DecidableEq, Repr

/-- What is known of the statement being executed. -/
structure Draft where
  inHistory : Bool
  /-- The statement has done a command other than `undo`. -/
  applied : Bool
  /-- What the statement has set of the appearance, as it would be written. -/
  lead : List String
deriving DecidableEq, Repr

def Draft.none : Draft := ⟨false, false, []⟩

/-- What a statement puts back if it fails. Paper and history are kept only once something takes
their place. -/
structure Transaction where
  entries : Nat
  history : Option (List String)
  /-- The paper, if there was any, that was replaced first. -/
  paper : Option (Option Ledger)
  depth : Option Nat
  access : Level
  stage : Stage
  camera : Camera
  color : Color
  texture : Option Picture
  filename : Option String
  locale : Option Locale

structure Session where
  settings : Settings
  engine : Engine
  access : Level
  stage : Stage
  camera : Camera
  color : Color
  texture : Option Picture
  filename : Option String
  locale : Option Locale
  transcript : List String
  model : Option Ledger
  history : List String
  draft : Draft
  transaction : Option Transaction
  world : World

abbrev Action := ExceptT Fault (StateM Session)

def Action.on {α : Type} (action : Action α) (session : Session) : Except Fault α × Session :=
  action session

def Action.of {α : Type} (step : Session → Except Fault α × Session) : Action α :=
  ExceptT.mk step

@[simp] theorem Action.on_of {α : Type} (step : Session → Except Fault α × Session)
    (session : Session) : (Action.of step).on session = step session := rfl

@[simp] theorem Action.on_pure {α : Type} (value : α) (session : Session) :
    (pure value : Action α).on session = (.ok value, session) := rfl

@[simp] theorem Action.on_throw {α : Type} (fault : Fault) (session : Session) :
    (throw fault : Action α).on session = (.error fault, session) := rfl

@[simp] theorem Action.on_get (session : Session) :
    (get : Action Session).on session = (.ok session, session) := rfl

@[simp] theorem Action.on_modify (change : Session → Session) (session : Session) :
    (modify change : Action Unit).on session = (.ok (), change session) := rfl

theorem Action.on_bind {α β : Type} (first : Action α) (next : α → Action β) (session : Session) :
    (first >>= next).on session =
      match first.on session with
      | (.ok value, after) => (next value).on after
      | (.error fault, after) => (.error fault, after) := by
  simp only [Action.on, bind, ExceptT.bind, ExceptT.mk, StateT.bind]
  rcases first session with ⟨result, after⟩
  cases result <;> rfl

theorem Action.on_map {α β : Type} (change : α → β) (action : Action α) (session : Session) :
    (change <$> action).on session =
      ((action.on session).1.map change, (action.on session).2) := by
  rw [← bind_pure_comp, Action.on_bind]
  rcases action.on session with ⟨result, after⟩
  cases result <;> rfl

namespace Session

def ofSettings (settings : Settings) (engine : Engine) (world : World) : Session :=
  { settings
    engine
    access := settings.access
    stage := .empty
    camera := .initial
    color := settings.initialColor
    texture := none
    filename := none
    locale := none
    transcript := []
    model := none
    history := []
    draft := .none
    transaction := none
    world }

def sandbox (session : Session) : Session :=
  { ofSettings session.settings session.engine session.world with
    access := .user, filename := session.filename }

structure Scope where
  recording : Bool
  cancellable : Bool
deriving DecidableEq, Repr

def lift {α : Type} (result : Except Fault α) : Action α :=
  match result with
  | .ok value => pure value
  | .error fault => throw fault

@[simp] theorem on_lift {α : Type} (result : Except Fault α) (session : Session) :
    (lift result).on session = (result, session) := by
  cases result <;> rfl

/-- Changes the files of the world; a fault keeps what was changed before it. -/
def withFiles (step : FileTree → Except Fault Unit × FileTree) : Action Unit :=
  Action.of fun session =>
    let (result, files) := step session.world.files
    (result, { session with world := { session.world with files } })

def refuseIf (condition : Prop) [Decidable condition] (fault : Fault) : Action Unit :=
  if condition then throw fault else pure ()

@[simp] theorem on_refuseIf (condition : Prop) [Decidable condition] (fault : Fault)
    (session : Session) :
    (refuseIf condition fault).on session =
      (if condition then .error fault else .ok (), session) := by
  unfold refuseIf
  split <;> rfl

def require (level : Level) : Action Unit := do
  let session ← get
  refuseIf (session.access < level) (.access level session.access)

@[simp] theorem on_require (level : Level) (session : Session) :
    (require level).on session =
      (if session.access < level then .error (.access level session.access) else .ok (), session) := by
  simp only [require, Action.on_bind, Action.on_get, on_refuseIf]

def paper (word : String) : Action Ledger := do
  match (← get).model with
  | some ledger => pure ledger
  | none => throw (.missing (.paper word))

@[simp] theorem on_paper (word : String) (session : Session) :
    (paper word).on session =
      (match session.model with
        | some ledger => .ok ledger
        | none => .error (.missing (.paper word)), session) := by
  simp only [paper, Action.on_bind, Action.on_get]
  split <;> rfl

def requiredFilename (word : String) : Action String := do
  match (← get).filename with
  | some path => pure path
  | none => throw (.missing (.filename word))

@[simp] theorem on_requiredFilename (word : String) (session : Session) :
    (requiredFilename word).on session =
      (match session.filename with
        | some path => .ok path
        | none => .error (.missing (.filename word)), session) := by
  simp only [requiredFilename, Action.on_bind, Action.on_get]
  split <;> rfl

def clearStage : Action Unit := modify fun session => { session with stage := .empty }

@[simp] theorem on_clearStage (session : Session) :
    clearStage.on session = (.ok (), { session with stage := .empty }) := rfl

def withAccess (level : Level) (session : Session) : Session := { session with access := level }

/-- Runs an action at another level and goes back to the level before, whatever happens. -/
def atLevel (level : Level) (action : Action Unit) : Action Unit :=
  Action.of fun session =>
    let (result, after) := action.on (session.withAccess level)
    (result, after.withAccess session.access)

@[simp] theorem on_atLevel (level : Level) (action : Action Unit) (session : Session) :
    (atLevel level action).on session =
      ((action.on (session.withAccess level)).1,
        (action.on (session.withAccess level)).2.withAccess session.access) := rfl

end Session

end PaperFolding
