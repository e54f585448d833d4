import PaperFolding.Proofs.Session.Rollback
import PaperFolding.Proofs.Session.Watching

/-!
Statements that the operator may stop. A stopped statement is no failure, and it leaves the session where it
was or where it would have come to by itself.
-/

namespace PaperFolding

/-- Where a session stands: what a statement that fails goes back to. -/
structure Position where
  history : List String
  content : Option (List Planar × List Record)
  access : Level
  stage : Stage
  camera : Camera
  color : Color
  texture : Option Picture
  filename : Option String
  locale : Option Locale

namespace Session

def position (session : Session) : Position :=
  { history := session.history
    content := session.model.map Ledger.content
    access := session.access
    stage := session.stage
    camera := session.camera
    color := session.color
    texture := session.texture
    filename := session.filename
    locale := session.locale }

theorem position_setWatch (active : Bool) (session : Session) :
    (session.setWatch active).position = session.position := rfl

variable {session : Session} {statement : String}

theorem Kin.position_eq {patient : Prop} {first second : Session}
    (kin : Kin (attending patient) first second) : first.position = second.position := by
  have position_unasked (session : Session) : session.position = session.unasked.position := rfl
  rw [position_unasked, kin.unasked_eq, ← position_unasked]

theorem position_of_failure {fault : Fault} (plain : session.engine = .plain)
    (failed : session.failure statement = some fault)
    (forward : ∀ text ∈ statement :: session.scriptsLoaded statement,
      Command.undo.name ∉ Script.tokens text ∧ Command.redo.name ∉ Script.tokens text) :
    (session.executed statement).position = session.position := by
  have content := executed_failure_content plain failed forward
  have history := executed_failure_history failed
  have rolled := executed_rollback failed
  rw [position, position, content, history, rolled]
  rfl

/-- Being watched and stopped does not show in a statement that succeeds. -/
theorem position_of_success (unwatched : session.Unwatched)
    (done : (session.setWatch true).failure statement = none) :
    ((session.setWatch true).executed statement).position =
      (session.executed statement).position := by
  obtain ⟨-, kin⟩ := kin_executed attending_admits_success (unwatched.kin true) rfl (.inr done)
  exact kin.position_eq

/-- However a statement is watched, it ends where it began or where it ends without a watch; and if it is
stopped, it counts as done. -/
theorem supervised_all_or_nothing (plain : session.engine = .plain) (unwatched : session.Unwatched)
    (forward : ∀ text ∈ statement :: (session.setWatch true).scriptsLoaded statement,
      Command.undo.name ∉ Script.tokens text ∧ Command.redo.name ∉ Script.tokens text) :
    (((session.setWatch true).executed statement).world.watch.stopped = true →
        ((executeSupervised statement).on session).1 = .ok ()) ∧
      (((executeSupervised statement).on session).2.position = session.position ∨
        ((executeSupervised statement).on session).2.position =
          (session.executed statement).position) := by
  constructor
  · intro stopped
    rw [executed] at stopped
    simp only [executeSupervised, Action.on_of, stopped, if_true]
  · rw [executeSupervised_session, position_setWatch]
    cases ended : (session.setWatch true).failure statement with
    | some fault => exact .inl (position_of_failure plain ended forward)
    | none => exact .inr (position_of_success unwatched ended)

/-- The operator waits when asked at the first call, and stops the statement at the second one. -/
def attended : Session :=
  ofSettings .standard .plain
    { World.quiet (.empty []) .absent with
      watch := ⟨false, some 0, [.wait (some 1), .stop], false⟩ }

/-- A stop that comes in time takes the whole statement back, one that comes too late nothing. -/
theorem supervised_all_or_nothing_attended :
    ((executeSupervised "paper [square] new plane [1 0 0] [1 0 0] reflect color [1]").on
        attended).1 = .ok () ∧
      ((executeSupervised "paper [square] new plane [1 0 0] [1 0 0] reflect color [1]").on
        attended).2.position = attended.position ∧
      ((executeSupervised "paper [square] new plane [1 0 0] [1 0 0] reflect").on
        attended).2.position =
          (attended.executed "paper [square] new plane [1 0 0] [1 0 0] reflect").position := by
  have plain : attended.engine = .plain := rfl
  have unwatched : attended.Unwatched := ⟨rfl, rfl⟩
  obtain ⟨done, early⟩ := supervised_all_or_nothing plain unwatched
    (by decide +kernel : ∀ text ∈ "paper [square] new plane [1 0 0] [1 0 0] reflect color [1]" ::
      (attended.setWatch true).scriptsLoaded
        "paper [square] new plane [1 0 0] [1 0 0] reflect color [1]",
      Command.undo.name ∉ Script.tokens text ∧ Command.redo.name ∉ Script.tokens text)
  obtain ⟨-, late⟩ := supervised_all_or_nothing plain unwatched
    (by decide +kernel : ∀ text ∈ "paper [square] new plane [1 0 0] [1 0 0] reflect" ::
      (attended.setWatch true).scriptsLoaded
        "paper [square] new plane [1 0 0] [1 0 0] reflect",
      Command.undo.name ∉ Script.tokens text ∧ Command.redo.name ∉ Script.tokens text)
  refine ⟨done (by decide +kernel), early.resolve_right ?_, late.resolve_left ?_⟩
  · intro same
    have history := congrArg Position.history same
    revert history
    decide +kernel
  · intro same
    have history := congrArg Position.history same
    revert history
    decide +kernel

end Session

end PaperFolding
