import PaperFolding.Session.Statement

/-!
What can be asked of a session: to execute statements, under supervision or without it, and to keep
its history.
-/

namespace PaperFolding.Session

/-- Script files run at the lowest level, so each file inside a file takes a grant of the operator;
the grants still to come bound how deep files can be nested. -/
def nestingBound (session : Session) : Nat := session.world.operator.grants + 1

def execute (statement : String) : Action Unit :=
  Action.of fun session =>
    (attempt (.ofDepth session.nestingBound) true statement).on session

theorem on_execute (statement : String) (session : Session) :
    (execute statement).on session =
      (attempt (.ofDepth session.nestingBound) true statement).on session := by
  rw [execute, Action.on_of]

/-- Begins to watch, or ceases to; the operator has not been asked yet. -/
def setWatch (active : Bool) (session : Session) : Session :=
  { session with
    world :=
      { session.world with
        watch := { session.world.watch with active, stopped := false }
        extended := false } }

/-- Executes a statement that the operator may stop. A statement that was stopped is no failure. -/
def executeSupervised (statement : String) : Action Unit :=
  Action.of fun session =>
    let (result, after) := (execute statement).on (session.setWatch true)
    let outcome :=
      if after.world.watch.stopped then .ok ()
      else
        match result with
        | .error .cancelled => .ok ()
        | result => result
    (outcome, after.setWatch false)

def takeBack (steps : Nat) : Action Unit :=
  Action.of fun session =>
    (replayUndo (.ofDepth session.nestingBound) false steps []).on session

def historyText (session : Session) : String :=
  String.intercalate "\n" session.history ++ "\n"

def saveHistory (path : String) : Action Unit :=
  Action.of fun session =>
    match session.world.files.replace path session.historyText.toUTF8 with
    | (.ok (), files) => (.ok (), { session with world := { session.world with files } })
    | (.error error, files) =>
        (.error (.file (.file error)), { session with world := { session.world with files } })

def resetHistory (session : Session) : Session := { session with history := [] }

def drainTranscript (session : Session) : List String × Session :=
  (session.transcript, { session with transcript := [] })

end PaperFolding.Session
