import PaperFolding.Session.Command
import PaperFolding.Session.Dispatch

/-!
Statements and the scripts they run. A statement enters the history; when it fails, the session goes
back to what it was. Scripts named by files run inside statements, to a depth that is given.
-/

namespace PaperFolding.Session

/-- How scripts from files are run, told whether the operator can stop them. -/
structure Nested where
  load : Bool → String → Action Unit
  compile : Bool → String → Action Unit

def scriptFile (word : String) : Action (String × String) := do
  let path ← requiredFilename word
  let source ← lift (((← get).world.files.readText path).mapError fun error => .file (.file error))
  pure (path, source)

theorem on_scriptFile (word : String) (session : Session) :
    (scriptFile word).on session =
      (match session.filename with
        | none => .error (.missing (.filename word))
        | some path =>
            match session.world.files.readText path with
            | .error error => .error (.file (.file error))
            | .ok source => .ok (path, source), session) := by
  simp only [scriptFile, Action.on_bind, on_requiredFilename]
  cases session.filename with
  | none => rfl
  | some path =>
      simp only [Action.on_get, on_lift]
      cases session.world.files.readText path <;> rfl

def compile (nested : Nested) (scope : Scope) : Action Unit := do
  let (_, source) ← scriptFile Command.compile.name
  nested.compile scope.cancellable source
  clearStage

def load (nested : Nested) (scope : Scope) (rest : List String) : Action Unit := do
  let (path, source) ← scriptFile Command.load.name
  nested.load scope.cancellable source
  rebase scope ("filename [" ++ path ++ "] load") rest
  clearStage

/-- Obeys a command; `takeBack` undoes what the engine cannot, given the tokens after the command. -/
def obey (nested : Nested) (scope : Scope) (takeBack : List String → Action Unit) :
    Command → List String → Action Unit
  | .new, rest => makePaper scope rest
  | .rotate, _ => rotate
  | .reflect, _ => reflect
  | .cut, _ => cut
  | .undo, rest => undoOr (takeBack rest)
  | .redo, _ => redo
  | .compile, _ => compile nested scope
  | .load, rest => load nested scope rest
  | .reopen, rest => reopen scope rest
  | .loadTexture, _ => loadTexture
  | .unloadTexture, _ => unloadTexture
  | .write encoding, _ => writeDocument encoding
  | .diagnose, _ => diagnose
  | .elevate request, _ => elevate request

def runBody (nested : Nested) (cancellable : Bool) (tokens : List String) : Action Unit :=
  let scope : Scope := ⟨false, cancellable⟩
  dispatch (obey nested scope fun _ => throw (.missing .undoableFold)) scope tokens

/-- The number of `undo` words in an entry that holds nothing else. -/
def undoCount? (entry : String) : Option Nat :=
  let tokens := Script.tokens entry
  if tokens.isEmpty || tokens.any (fun token => token ≠ Command.undo.name) then none
  else some tokens.length

/-- Drops entries, latest first, until `owed` of them are paid for. An entry of nothing but `undo`
has already taken back as many entries before it, which are then owed as well. -/
def dropOwed : List String → Nat → List String
  | [], _ => []
  | entry :: earlier, 0 => entry :: earlier
  | entry :: earlier, owed + 1 =>
      match undoCount? entry with
      | some count => dropOwed earlier (owed + 1 + count)
      | none => dropOwed earlier owed

/-- The history that is left when a running statement takes back `steps` entries. The statement
itself goes first, and counts as one of them if it has already done something. -/
def shortenedHistory (draft : Draft) (recording : Bool) (steps : Nat) (history : List String) :
    List String :=
  if recording && draft.inHistory then
    (dropOwed history.reverse.tail (if draft.applied then steps - 1 else steps)).reverse
  else (dropOwed history.reverse steps).reverse

def dropping (recording : Bool) (steps : Nat) (session : Session) : Session :=
  { session.rewriting (shortenedHistory session.draft recording steps session.history) with
    draft := { session.draft with inHistory := session.draft.inHistory && !recording } }

def unstaged (session : Session) : Session :=
  { session with stage := .empty, camera := .initial }

def shortening (recording : Bool) (steps : Nat) (session : Session) : Session :=
  ((session.dropping recording steps).rewind 0).unstaged

def resuming (recording : Bool) (rest : List String) (session : Session) : Session :=
  let tail := Script.restore rest
  if recording && !tail.isEmpty then
    { session.rewriting (session.history ++ [tail]) with draft := ⟨true, false, []⟩ }
  else session

def replay (nested : Nested) : Action Unit := do
  let entries := (← get).history
  atLevel .dev (entries.forM fun entry => runBody nested false (Script.tokens entry))

/-- Undoes by starting over: drops the last entries of the history and does the others again. What
follows in the statement becomes a new entry. -/
def replayUndo (nested : Nested) (recording : Bool) (steps : Nat) (rest : List String) :
    Action Unit := do
  modify (shortening recording steps)
  replay nested
  modify (resuming recording rest)

def runRecorded (nested : Nested) (cancellable : Bool) (tokens : List String) : Action Unit :=
  let scope : Scope := ⟨true, cancellable⟩
  dispatch (obey nested scope (replayUndo nested true 1)) scope tokens

def begin (session : Session) : Transaction :=
  { entries := session.history.length
    history := none
    paper := none
    depth := session.depth
    access := session.access
    stage := session.stage
    camera := session.camera
    color := session.color
    texture := session.texture
    filename := session.filename
    locale := session.locale }

def enter (session : Session) (statement : String) : Session :=
  { session with
    history := session.history ++ [statement]
    draft := ⟨true, false, []⟩
    transaction := some session.begin }

def settle (session : Session) : Session :=
  { session with draft := .none, transaction := none }

/-- The session with the history and the paper that were kept for the running statement, whose history
had so many entries at first. -/
def returning (entries : Nat) (session : Session) : Session :=
  { session with history := session.keptHistory.take entries, model := session.keptPaper }

def putBack (transaction : Transaction) (session : Session) : Session :=
  { session with
    access := transaction.access
    stage := transaction.stage
    camera := transaction.camera
    color := transaction.color
    texture := transaction.texture
    filename := transaction.filename
    locale := transaction.locale }

/-- The session whose engine is as ready to undo as it was; if there was no paper, there is nothing to
undo or to redo. -/
def rewinding (depth : Option Nat) (session : Session) : Session :=
  match depth with
  | some depth => session.rewind depth
  | none => session

/-- The session after a statement has failed, with what was kept for it put back. What was done to
the paper it began with is undone or redone; files and the transcript stay as they are. -/
def rollback (session : Session) (transaction : Transaction) : Session :=
  ((session.returning transaction.entries).rewinding transaction.depth).putBack transaction

def recover (session : Session) : Session :=
  match session.transaction with
  | some transaction => session.rollback transaction
  | none => session

def concluding : Except Fault Unit × Session → Except Fault Unit × Session
  | (.ok (), after) => (.ok (), after.settle)
  | (.error fault, after) => (.error fault, after.recover.settle)

def attempt (nested : Nested) (cancellable : Bool) (statement : String) : Action Unit :=
  Action.of fun before =>
    concluding
      ((runRecorded nested cancellable (Script.tokens statement)).on (before.enter statement))

theorem on_attempt (nested : Nested) (cancellable : Bool) (statement : String) (session : Session) :
    (attempt nested cancellable statement).on session =
      concluding ((runRecorded nested cancellable (Script.tokens statement)).on
        (session.enter statement)) := by
  rw [attempt, Action.on_of]

theorem concluding_of_error {run : Except Fault Unit × Session} {fault : Fault}
    (failed : run.1 = .error fault) : concluding run = (.error fault, run.2.recover.settle) := by
  obtain ⟨_, after⟩ := run
  cases failed
  rfl

theorem concluding_of_ok {run : Except Fault Unit × Session} (done : run.1 = .ok ()) :
    concluding run = (.ok (), run.2.settle) := by
  obtain ⟨_, after⟩ := run
  cases done
  rfl

@[simp] theorem concluding_outcome (run : Except Fault Unit × Session) :
    (concluding run).1 = run.1 := by
  obtain ⟨_ | _, after⟩ := run <;> rfl

/-- The session once a sandbox has been closed: only its transcript and the world come back. -/
def closing (sandbox session : Session) : Session :=
  { session with transcript := session.transcript ++ sandbox.transcript, world := sandbox.world }

def inSandbox (action : Action Unit) : Action Unit :=
  Action.of fun session =>
    let (result, sandbox) := action.on session.sandbox
    (result, closing sandbox session)

@[simp] theorem on_inSandbox (action : Action Unit) (session : Session) :
    (inSandbox action).on session =
      ((action.on session.sandbox).1, closing (action.on session.sandbox).2 session) := rfl

/-- Runs scripts that are nested at most so deep, always at the lowest level. -/
def Nested.ofDepth : Nat → Nested
  | 0 => ⟨fun _ _ => throw .nestedTooDeep, fun _ _ => throw .nestedTooDeep⟩
  | depth + 1 =>
      let inner := ofDepth depth
      ⟨fun cancellable source => atLevel .user (runBody inner cancellable (Script.tokens source)),
        fun cancellable source => inSandbox (attempt inner cancellable source)⟩

theorem Nested.load_ofDepth (depth : Nat) (cancellable : Bool) (source : String) :
    (ofDepth (depth + 1)).load cancellable source =
      atLevel .user (runBody (ofDepth depth) cancellable (Script.tokens source)) := rfl

theorem Nested.compile_ofDepth (depth : Nat) (cancellable : Bool) (source : String) :
    (ofDepth (depth + 1)).compile cancellable source =
      inSandbox (attempt (ofDepth depth) cancellable source) := rfl

end PaperFolding.Session
