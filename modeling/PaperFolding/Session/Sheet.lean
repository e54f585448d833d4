import PaperFolding.Session.Basic

/-!
The calls a session makes to its engine. Every call is noted before it is made.
-/

namespace PaperFolding.Session

def noting (call : Call) (session : Session) : Session :=
  { session with world := session.world.note call }

def note (call : Call) : Action Unit := modify (noting call)

@[simp] theorem on_note (call : Call) (session : Session) :
    (note call).on session = (.ok (), session.noting call) := rfl

def holding (ledger : Ledger) (session : Session) : Session :=
  { session with model := some ledger }

def refusing {α : Type} (result : Except Refusal α) : Action α :=
  match result with
  | .ok value => pure value
  | .error refusal => throw (.sheet refusal)

@[simp] theorem on_refusing {α : Type} (result : Except Refusal α) (session : Session) :
    (refusing result).on session = (result.mapError Fault.sheet, session) := by
  cases result <;> rfl

def fold (word : String) (call : Call) (step : Engine → Ledger → Except Refusal Ledger) :
    Action Unit := do
  let ledger ← paper word
  note call
  let folded ← refusing (step (← get).engine ledger)
  modify (holding folded)

theorem on_fold (word : String) (call : Call) (step : Engine → Ledger → Except Refusal Ledger)
    (session : Session) :
    (fold word call step).on session =
      match session.model with
      | none => (.error (.missing (.paper word)), session)
      | some ledger =>
          match step session.engine ledger with
          | .error refusal => (.error (.sheet refusal), session.noting call)
          | .ok folded => (.ok (), (session.noting call).holding folded) := by
  simp only [fold, Action.on_bind, on_paper, on_note, Action.on_get, on_refusing]
  cases held : session.model with
  | none => rfl
  | some ledger =>
      simp only [noting]
      cases step session.engine ledger <;> rfl

def operate (word : String) (record : Record) : Action Unit :=
  fold word (.operate record) fun engine ledger => engine.apply ledger record

def undoSheet (word : String) : Action Unit :=
  fold word .undo Engine.undo

def redoSheet (word : String) : Action Unit :=
  fold word .redo Engine.redo

def regionAt (word : String) (point : Planar) : Action UInt64 := do
  let ledger ← paper word
  note (.regionAt point)
  refusing ((← get).engine.regionAt ledger point)

theorem on_regionAt (word : String) (point : Planar) (session : Session) :
    (regionAt word point).on session =
      match session.model with
      | none => (.error (.missing (.paper word)), session)
      | some ledger =>
          ((session.engine.regionAt ledger point).mapError Fault.sheet,
            session.noting (.regionAt point)) := by
  simp only [regionAt, Action.on_bind, on_paper, on_note, Action.on_get, on_refusing]
  cases held : session.model with
  | none => rfl
  | some ledger => rfl

/-- The number of operations that the engine is ready to take back. -/
def depth (session : Session) : Option Nat := session.model.map session.engine.depth

def repeating (step : Action Unit) : Nat → Session → Session
  | 0, session => session
  | count + 1, session =>
      match step.on session with
      | (.ok (), after) => repeating step count after
      | (.error _, after) => after

/-- Undoes or redoes until the engine is ready to take back `target` operations. -/
def rewind (target : Nat) (session : Session) : Session :=
  match session.depth with
  | none => session
  | some current =>
      if target < current then repeating (undoSheet Command.undo.name) (current - target) session
      else repeating (redoSheet Command.redo.name) (target - current) session

/-- The paper that a failure of the running statement goes back to, before its own operations are
taken back. -/
def keptPaper (session : Session) : Option Ledger :=
  (session.transaction.bind Transaction.paper).getD session.model

def replacing (ledger : Ledger) (session : Session) : Session :=
  { session with
    model := some ledger
    transaction := session.transaction.map fun transaction =>
      { transaction with paper := some session.keptPaper } }

def replacePaper (ledger : Ledger) : Action Unit := modify (replacing ledger)

@[simp] theorem on_replacePaper (ledger : Ledger) (session : Session) :
    (replacePaper ledger).on session = (.ok (), session.replacing ledger) := rfl

end PaperFolding.Session
