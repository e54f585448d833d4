import PaperFolding.Script.Token
import PaperFolding.Session.Basic

/-!
How a statement that makes new paper shortens the history: it becomes one entry that makes the same
paper and goes on with the rest of the statement.
-/

namespace PaperFolding.Session

/-- The words of a statement that go in front of a construction: what it has set of the appearance,
except where the construction itself says so. -/
def leadBefore (lead : List String) (construction : String) : List String :=
  lead.filter fun entry => !Text.contains entry.toList construction.toList

def rebasedEntry (lead : List String) (construction : String) (rest : List String) : String :=
  let tail := Script.restore rest
  String.intercalate " "
    (leadBefore lead construction ++ [construction] ++ (if tail.isEmpty then [] else [tail]))

def keptHistory (session : Session) : List String :=
  (session.transaction.bind Transaction.history).getD session.history

/-- The session with another history in the place of the present one, which the running statement
keeps if it is the first to go. -/
def rewriting (history : List String) (session : Session) : Session :=
  { session with
    history
    transaction := session.transaction.map fun transaction =>
      { transaction with history := some session.keptHistory } }

def rebasing (scope : Scope) (construction : String) (rest : List String) (session : Session) :
    Session :=
  if scope.recording then
    { session.rewriting [rebasedEntry session.draft.lead construction rest] with
      draft := { session.draft with inHistory := true } }
  else session

def rebase (scope : Scope) (construction : String) (rest : List String) : Action Unit :=
  modify (rebasing scope construction rest)

@[simp] theorem on_rebase (scope : Scope) (construction : String) (rest : List String)
    (session : Session) :
    (rebase scope construction rest).on session =
      (.ok (), session.rebasing scope construction rest) := rfl

/-- A parameter with the tokens it took, as the statement would be written without the rest. -/
def leadEntry (word : String) (taken : List String) : String :=
  String.ofList (Text.trimEnd (word.toList ++ ' ' :: (Script.restore taken).toList))

def remembering (word : String) (taken : List String) (session : Session) : Session :=
  { session with
    draft := { session.draft with lead := session.draft.lead ++ [leadEntry word taken] } }

def remember (word : String) (taken : List String) : Action Unit :=
  modify (remembering word taken)

@[simp] theorem on_remember (word : String) (taken : List String) (session : Session) :
    (remember word taken).on session = (.ok (), session.remembering word taken) := rfl

end PaperFolding.Session
