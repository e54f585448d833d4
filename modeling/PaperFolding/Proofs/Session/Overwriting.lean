import PaperFolding.Proofs.Session.Effective
import PaperFolding.Proofs.Session.Sparing

/-!
Documents that are written over others. It takes a higher level than the lowest to do so in a statement,
but what is done again, to start over, is done at the highest level, whoever has asked for it.
-/

namespace PaperFolding.Session

/-- Whatever a statement does, and whether or not it succeeds, a session at the lowest level leaves every
file as it is unless the operator agrees to raise the level, or the statement starts over and an entry of
the history that it does again writes a document over another. -/
theorem executed_overwrites_nothing {session : Session} {statement : String} (meek : session.Meek)
    (user : session.access = .user)
    (spared : ∀ deed ∈ session.redoneDeeds statement, deed.overwrites = false) :
    session.world.files.Extends (session.executed statement).world.files := by
  have again : ∀ deed ∈ session.redoneDeeds statement, deed.Tame False := fun deed among =>
    .inr ⟨spared deed among, False.elim⟩
  exact (spares_executed meek (.inl user) again).1.seen.1

/-- The history of the session ends with a document that it has written. -/
def documented : Session :=
  fresh.executedAll ["paper [square] new", "filename [a.ori] export-ori"]

theorem documented_engine : documented.engine = .plain := by
  rw [documented, executedAll_engine]
  rfl

theorem executed_overwrites_nothing_documented :
    (documented.redoneDeeds "color [1] undo filename [a.ori] export-ori").map Deed.command = [.new] ∧
      documented.failure "color [1] undo filename [a.ori] export-ori" =
        some (.access .root .user) ∧
      documented.world.files.Extends
        (documented.executed "color [1] undo filename [a.ori] export-ori").world.files := by
  refine ⟨by decide +kernel, by decide +kernel, ?_⟩
  refine executed_overwrites_nothing ⟨documented_engine, by decide +kernel⟩ (by decide +kernel) ?_
  decide +kernel

def recolored : Session := documented.executed "color [1]"

theorem recolored_meek : recolored.Meek := by
  refine ⟨?_, by decide +kernel⟩
  rw [recolored, executed_engine, documented_engine]

/-- Starting over, the session writes the document again, with the color it has now. -/
theorem undo_overwrites :
    recolored.Meek ∧ recolored.access = .user ∧ recolored.failure "undo" = none ∧
      ¬ recolored.world.files.Extends (recolored.executed "undo").world.files := by
  refine ⟨recolored_meek, by decide +kernel, by decide +kernel, fun grows => ?_⟩
  have changed : ∃ content, (recolored.world.files.read "a.ori").toOption = some content ∧
      ((recolored.executed "undo").world.files.read "a.ori").toOption ≠ some content := by
    decide +kernel
  cases written : recolored.world.files.read "a.ori" with
  | error error =>
      rw [written] at changed
      obtain ⟨_, unread, -⟩ := changed
      cases unread
  | ok content =>
      rw [written, grows.read written] at changed
      obtain ⟨_, same, differs⟩ := changed
      exact differs same

end PaperFolding.Session
