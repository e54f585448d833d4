import PaperFolding.Session.Parameter
import PaperFolding.Session.Rebase

/-!
One pass over the tokens of a script. A command acts as soon as it is read and is given the tokens
after it; a parameter takes the tokens up to the next word that is known.
-/

namespace PaperFolding.Session

/-- Where a stop by the operator takes effect. -/
def checkpoint (scope : Scope) : Action Unit := do
  let session ← get
  refuseIf (scope.cancellable && session.world.watch.stopped) .cancelled

@[simp] theorem on_checkpoint (scope : Scope) (session : Session) :
    (checkpoint scope).on session =
      (if scope.cancellable && session.world.watch.stopped then .error .cancelled else .ok (),
        session) := by
  simp only [checkpoint, Action.on_bind, Action.on_get, on_refuseIf]

def permit (command : Command) : Action Unit := do
  require command.access
  if command.needsPaper then
    let _ ← paper command.name

def objection? (command : Command) (session : Session) : Option Fault :=
  if session.access < command.access then some (.access command.access session.access)
  else if command.needsPaper && session.model.isNone then some (.missing (.paper command.name))
  else none

@[simp] theorem on_permit (command : Command) (session : Session) :
    (permit command).on session =
      (match objection? command session with
        | some fault => .error fault
        | none => .ok (), session) := by
  simp only [permit, Action.on_bind, on_require, objection?]
  by_cases low : session.access < command.access
  · simp only [low, if_true]
  · simp only [low, if_false]
    cases command.needsPaper with
    | false => rfl
    | true =>
        simp only [if_true, Action.on_bind, on_paper, Bool.true_and]
        cases session.model <;> rfl

def isKnown (word : String) : Bool := (Keyword.ofWord? word).isSome

def taken (rest : List String) : List String := rest.takeWhile fun word => !isKnown word

def obeyParameter (scope : Scope) (parameter : Parameter) (rest : List String) : Action Unit := do
  parameter.obey ((taken rest).map Script.argument)
  if scope.recording && parameter.isAppearance then remember parameter.name (taken rest)

def applying (session : Session) : Session :=
  { session with draft := { session.draft with applied := true } }

def obeyCommand (obey : Command → List String → Action Unit) (scope : Scope) (command : Command)
    (rest : List String) : Action Unit := do
  permit command
  obey command rest
  if scope.recording && command ≠ .undo then modify applying

def obeyWord (obey : Command → List String → Action Unit) (scope : Scope) (word : String)
    (rest : List String) : Action Unit :=
  match Keyword.ofWord? word with
  | some (.command command) => obeyCommand obey scope command rest
  | some (.parameter parameter) => obeyParameter scope parameter rest
  | none => pure ()

/-- Obeys one token with the tokens after it; fragments belong to what stands before them. -/
def obeyToken (obey : Command → List String → Action Unit) (scope : Scope) (token : String)
    (rest : List String) : Action Unit :=
  if Script.isFragment token then pure ()
  else do
    checkpoint scope
    obeyWord obey scope token rest

def dispatch (obey : Command → List String → Action Unit) (scope : Scope) :
    List String → Action Unit
  | [] => pure ()
  | token :: rest => do
      obeyToken obey scope token rest
      dispatch obey scope rest

end PaperFolding.Session
