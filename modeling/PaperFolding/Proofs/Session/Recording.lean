import PaperFolding.Proofs.Session.Deeds
import PaperFolding.Proofs.Session.HistoryShape

/-!
What the history says after a statement. A failed statement leaves no trace in it; one that succeeds
stands behind what it has left of the history, which is all of it unless it starts anew.
-/

namespace PaperFolding

open Script

/-- A deed that leaves the history to the statement: it neither starts it anew nor starts over. -/
def Deed.Additive (deed : Deed) : Prop := deed.command ∉ Session.rewriters ∧ ¬ deed.StartsOver

instance (deed : Deed) : Decidable deed.Additive := inferInstanceAs (Decidable (_ ∧ _))

namespace Session

variable {run : Command → List String → Action Unit} {depth : Nat} {scope : Scope}
  {takeBack : List String → Action Unit} {token : String} {rest row : List String}
  {session after : Session}

theorem unwritten_of_undoOr (ready : ¬ session.depth.getD 0 = 0) {otherwise : Action Unit}
    (done : (undoOr otherwise).on session = (.ok (), after)) : Unwritten session after := by
  obtain ⟨_, _, got, done⟩ := ok_of_bind done
  cases got
  obtain ⟨_, reached, undoes, clears⟩ := ok_of_bind done
  cases clears
  rw [if_pos (Nat.pos_of_ne_zero ready)] at undoes
  have untold := fold_frame undoes
  exact ⟨untold.history, congrArg Draft.inHistory untold.draft⟩

theorem unwritten_of_obeyToken
    (additive : ∀ deed ∈ deed? scope token session, deed.Additive)
    (done : (obeyToken (obey (.ofDepth depth) scope takeBack) scope token rest).on session =
      (.ok (), after)) : Unwritten session after := by
  rcases deed?_cases done with ⟨-, beside, -⟩ | ⟨command, reached, does, obeyed, beside, -⟩
  · exact ⟨beside.history, beside.inHistory⟩
  · obtain ⟨stays, ready⟩ := additive _ does
    have obeys : Unwritten session reached := by
      by_cases undoes : command = .undo
      · subst undoes
        exact unwritten_of_undoOr (fun bare => ready ⟨rfl, bare⟩) obeyed
      · exact unwritten_of_obey undoes stays obeyed
    exact obeys.trans ⟨beside.history, beside.inHistory⟩

theorem unwritten_of_dispatch
    (additive : ∀ deed ∈ deedsAlong (obey (.ofDepth depth) scope takeBack) scope row session,
      deed.Additive)
    (done : (dispatch (obey (.ofDepth depth) scope takeBack) scope row).on session =
      (.ok (), after)) : Unwritten session after := by
  induction row generalizing session with
  | nil =>
      cases done
      exact ⟨rfl, rfl⟩
  | cons token rest induction =>
      obtain ⟨_, reached, obeyed, others⟩ := ok_of_bind done
      rw [deedsAlong_of_ok obeyed] at additive
      have here := unwritten_of_obeyToken
        (fun deed among => additive deed (List.mem_append_left _ (by simpa using among))) obeyed
      exact here.trans
        (induction (fun deed among => additive deed (List.mem_append_right _ among)) others)

theorem history_of_additive {statement : String} (done : session.failure statement = none)
    (additive : ∀ deed ∈ session.deeds statement, deed.Additive) :
    (session.executed statement).history = session.history ++ [statement] := by
  obtain ⟨after, runs, settled⟩ := running_of_success done
  have unwritten := unwritten_of_dispatch additive runs
  rw [settled]
  exact unwritten.history

/-- Whatever the engine does, the history after a statement is the one before, if the statement fails,
and otherwise a front part of it with at most one entry behind. If the statement itself neither made,
loaded or opened paper nor started over, that is the whole history and the statement. -/
theorem executed_history (session : Session) (statement : String) :
    (session.failure statement ≠ none →
      (session.executed statement).history = session.history) ∧
    (session.failure statement = none →
      (∃ kept, kept <+: session.history ∧ ((session.executed statement).history = kept ∨
        ∃ entry, (session.executed statement).history = kept ++ [entry])) ∧
      ((∀ deed ∈ session.deeds statement, deed.Additive) →
        (session.executed statement).history = session.history ++ [statement])) := by
  refine ⟨fun failed => ?_, fun done => ⟨?_, history_of_additive done⟩⟩
  · obtain ⟨fault, failed⟩ := Option.ne_none_iff_exists'.1 failed
    exact executed_failure_history failed
  · obtain ⟨kept, trims, ends⟩ := history_of_success done
    exact ⟨kept, trims.isPrefix, ends⟩

theorem executed_history_folded :
    (folded.executed "plane [2 0 0] [1 0 0] reflect").history =
        folded.history ++ ["plane [2 0 0] [1 0 0] reflect"] ∧
      (folded.executed "undo undo cut").history = folded.history := by
  have folds := (executed_history folded "plane [2 0 0] [1 0 0] reflect").2 (by decide +kernel)
  have fails := (executed_history folded "undo undo cut").1 (by decide +kernel)
  exact ⟨folds.2 (by decide +kernel), fails⟩

end Session

end PaperFolding
