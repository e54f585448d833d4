import PaperFolding.Proofs.Session.Effective
import PaperFolding.Proofs.Session.Nesting
import PaperFolding.Proofs.Session.Respelling

/-!
Statements that first undo by starting over. What follows in such a statement is done as a statement of its
own would do it, which is all the same but for the spelling of its entry.
-/

namespace PaperFolding

open Script

namespace Session

variable {session replayed after : Session} {statement text : String} {nested : Nested}
  {rest : List String}

theorem indifferentScripts_unbounded : IndifferentScripts .unbounded := by
  intro cancellable source
  have bound {first second : Session} (respells : Respells first second) :
      first.nestingBound = second.nestingBound := respells.reads nestingBound fun _ => rfl
  constructor
  · intro first second respells
    rw [Nested.on_load_unbounded, Nested.on_load_unbounded, bound respells]
    exact (indifferentScripts_ofDepth _ cancellable source).1 first second respells
  · intro first second respells
    rw [Nested.on_compile_unbounded, Nested.on_compile_unbounded, bound respells]
    exact (indifferentScripts_ofDepth _ cancellable source).2 first second respells

/-- A statement is executed as if its scripts were run to any depth. -/
theorem on_execute_unbounded (session : Session) (statement : String) :
    (execute statement).on session =
      concluding ((runRecorded .unbounded true (tokens statement)).on (session.enter statement)) := by
  have all : session.grants =
      session.grants - (session.executed statement).grants +
        (session.executed statement).grants :=
    (Nat.sub_add_cancel (executed_grants_le session statement)).symm
  rw [← attempt_within .unbounded all (Nat.le_refl _) (Nat.lt_succ_self _),
    Nested.within_of_enclosing Nested.enclosing_unbounded, on_attempt]

theorem tokens_undo_append (text : String) :
    tokens ("undo " ++ text) = Command.undo.name :: tokens text := by
  have split : stripComments false ("undo " ++ text).toList =
      "undo".toList ++ ' ' :: stripComments false text.toList := by
    rw [String.toList_append]
    rfl
  rw [tokens_eq_read, split, read_join rfl, List.map_append, ← tokens_eq_read]
  rfl

/-! ## Starting over -/

theorem startedOver_of_ok (bare : session.depth.getD 0 = 0)
    (done : (obeyToken (obey nested ⟨true, true⟩ (replayUndo nested true 1)) ⟨true, true⟩
      Command.undo.name rest).on session = (.ok (), after)) :
    ∃ replayed, (replay nested).on (session.shortening true 1) = (.ok (), replayed) ∧
      after = { replayed.resuming true rest with stage := .empty } := by
  obtain ⟨reached, undone, rfl⟩ := obeyToken_command done
  obtain ⟨_, _, got, undone⟩ := ok_of_bind undone
  cases got
  have unready : ¬ 0 < session.depth.getD 0 := by
    rw [bare]
    exact Nat.lt_irrefl 0
  dsimp only at undone
  rw [if_neg unready] at undone
  obtain ⟨_, left, replays, cleared⟩ := ok_of_bind undone
  obtain ⟨replayed, runs, rfl⟩ := replayUndo_of_ok replays
  cases cleared
  exact ⟨replayed, runs, rfl⟩

/-- What a statement drops that undoes first does not depend on its own text. -/
theorem respells_shortening (session : Session) (statement statement' : String) :
    Respells ((session.enter statement).shortening true 1)
      ((session.enter statement').shortening true 1) := by
  have drops (statement : String) :
      shortenedHistory ⟨true, false, []⟩ true 1 (session.history ++ [statement]) =
        (dropOwed session.history.reverse 1).reverse := by
    simp [shortenedHistory]
  have dropped : Respells ((session.enter statement).dropping true 1)
      ((session.enter statement').dropping true 1) := by
    refine ⟨rfl, ?_⟩
    show (shortenedHistory ⟨true, false, []⟩ true 1 (session.history ++ [statement])).map tokens =
      (shortenedHistory ⟨true, false, []⟩ true 1 (session.history ++ [statement'])).map tokens
    exact congrArg (List.map tokens) ((drops statement).trans (drops statement').symm)
  exact (dropped.rewind 0).change unstaged (fun _ => rfl) fun _ => rfl

/-- What follows becomes the entry of the statement, as if it had been entered by itself. -/
theorem Respells.enter_resuming {first second : Session} (respells : Respells first second)
    (unmarked : spaceMark ∉ text.toList) (some : tokens text ≠ []) :
    Respells ({ first with stage := .empty }.settle.enter text)
      { second.resuming true (tokens text) with stage := .empty } := by
  have rows := row_tokens unmarked
  have base := respells.change
    (fun session => { session with stage := .empty, draft := ⟨true, false, []⟩ })
    (fun _ => rfl) fun _ => rfl
  rw [resuming_of_more (isEmpty_restore_of_row rows some)]
  refine ⟨base.unrecorded, ?_⟩
  show (first.history ++ [text]).map tokens =
    (second.history ++ [restore (tokens text)]).map tokens
  rw [List.map_append, List.map_append, respells.history, List.map_singleton, List.map_singleton,
    tokens_restore rows]

theorem on_execute_undo_append {reached ended : Session} (bare : session.depth.getD 0 = 0)
    (unmarked : spaceMark ∉ text.toList) (some : tokens text ≠ [])
    (undone : (execute "undo").on session = (.ok (), reached))
    (done : (execute text).on reached = (.ok (), ended)) :
    ∃ ended', (execute ("undo " ++ text)).on session = (.ok (), ended') ∧
      Respells ended ended' := by
  have scripts := indifferentScripts_unbounded
  have reads : tokens "undo" = [Command.undo.name] := by decide +kernel
  have bare (statement : String) : (session.enter statement).depth.getD 0 = 0 := bare
  rw [on_execute_unbounded, reads, runRecorded, dispatch] at undone
  obtain ⟨middle, ran, rfl⟩ := ok_of_concluding undone
  obtain ⟨_, first, obeyed, last⟩ := ok_of_bind ran
  cases last
  have unstopped : (session.enter "undo").world.watch.stopped = false :=
    unstopped_of_command rfl obeyed
  have present : (session.enter "undo").model.isSome = true := present_of_command rfl obeyed
  obtain ⟨ledger, held⟩ : ∃ ledger, (session.enter ("undo " ++ text)).model = .some ledger :=
    Option.isSome_iff_exists.1 present
  obtain ⟨replayed, replays, rfl⟩ := startedOver_of_ok (bare "undo") obeyed
  -- The one statement starts over in the same way, and goes on with an entry of what follows.
  have again := indifferent_replay scripts _ _
    (respells_shortening session "undo" ("undo " ++ text))
  rw [replays] at again
  obtain ⟨replayed', replays', respells⟩ := again.ok
  have unstopped' : (session.enter ("undo " ++ text)).world.watch.stopped = false := unstopped
  have begun := on_obeyToken_undo unstopped' held .unbounded ⟨true, true⟩
    (replayUndo .unbounded true 1) (tokens text)
    (on_undoOr_of_bare (bare _) (on_replayUndo (tokens text) replays'))
  rw [on_execute_unbounded] at done
  obtain ⟨left, runs, rfl⟩ := ok_of_concluding done
  have onwards := indifferent_runRecorded scripts true (tokens text) _ _
    (respells.enter_resuming unmarked some)
  have idle : replayed.resuming true [] = replayed := rfl
  rw [idle] at runs
  rw [runs] at onwards
  obtain ⟨left', goes, respells'⟩ := onwards.ok
  have ran : (runRecorded .unbounded true (tokens ("undo " ++ text))).on
      (session.enter ("undo " ++ text)) = (.ok (), left') := by
    rw [tokens_undo_append, runRecorded, dispatch, on_bind_of_ok begun]
    exact goes
  refine ⟨left'.settle, ?_, respells'.settle⟩
  rw [on_execute_unbounded, ran]
  rfl

/-- With an engine that undoes nothing itself, a statement that first undoes does what `undo` and the rest of
it do as two statements, if these succeed; and its history is read in the same way. -/
theorem undo_composes (forgets : ∀ ledger, session.engine.depth ledger = 0)
    (unmarked : spaceMark ∉ text.toList) (some : tokens text ≠ [])
    (undone : session.failure "undo" = none)
    (done : (session.executed "undo").failure text = none) :
    session.failure ("undo " ++ text) = none ∧
      (session.executed ("undo " ++ text)).model =
        ((session.executed "undo").executed text).model ∧
      (session.executed ("undo " ++ text)).stage =
        ((session.executed "undo").executed text).stage ∧
      (session.executed ("undo " ++ text)).color =
        ((session.executed "undo").executed text).color ∧
      (session.executed ("undo " ++ text)).filename =
        ((session.executed "undo").executed text).filename ∧
      (session.executed ("undo " ++ text)).locale =
        ((session.executed "undo").executed text).locale ∧
      (session.executed ("undo " ++ text)).camera =
        ((session.executed "undo").executed text).camera ∧
      (session.executed ("undo " ++ text)).history.map tokens =
        ((session.executed "undo").executed text).history.map tokens := by
  have bare : session.depth.getD 0 = 0 := by
    rw [depth]
    cases session.model with
    | none => rfl
    | some ledger => exact forgets ledger
  have undone : (execute "undo").on session = (.ok (), session.executed "undo") :=
    Prod.ext (faultOf_eq_none.1 undone) rfl
  have done : (execute text).on (session.executed "undo") =
      (.ok (), (session.executed "undo").executed text) := Prod.ext (faultOf_eq_none.1 done) rfl
  obtain ⟨ended, runs, respells⟩ := on_execute_undo_append bare unmarked some undone done
  have same : session.executed ("undo " ++ text) = ended := congrArg Prod.snd runs
  have done' : session.failure ("undo " ++ text) = none := by
    rw [failure, runs]
    rfl
  rw [same]
  refine ⟨done', (respells.reads Session.model fun _ => rfl).symm,
    (respells.reads Session.stage fun _ => rfl).symm,
    (respells.reads Session.color fun _ => rfl).symm,
    (respells.reads Session.filename fun _ => rfl).symm,
    (respells.reads Session.locale fun _ => rfl).symm,
    (respells.reads Session.camera fun _ => rfl).symm, respells.history.symm⟩

/-- A session with two folds whose engine undoes nothing. -/
def foldedTwice : Session :=
  (ofSettings .standard .forgetful (.quiet (.empty []) .absent)).executedAll
    ["paper [square] new", "plane [1 0 0] [1 0 0] reflect", "plane [2 0 0] [1 0 0] reflect"]

/-- The cut that follows the first `undo` is taken back by the second one. -/
theorem undo_composes_twice :
    (foldedTwice.executed "undo").failure "plane [4 0 0] [1 0 0] cut undo color [7]" = none ∧
      foldedTwice.failure "undo plane [4 0 0] [1 0 0] cut undo color [7]" = none ∧
      (foldedTwice.executed "undo plane [4 0 0] [1 0 0] cut undo color [7]").model =
        ((foldedTwice.executed "undo").executed "plane [4 0 0] [1 0 0] cut undo color [7]").model ∧
      (foldedTwice.executed "undo plane [4 0 0] [1 0 0] cut undo color [7]").history.map tokens =
        [["paper", "[square]", "new"], ["plane", "[1|0|0]", "[1|0|0]", "reflect"],
          ["color", "[7]"]] := by
  have forgets : ∀ ledger, foldedTwice.engine.depth ledger = 0 := by
    intro ledger
    rw [foldedTwice, executedAll_engine]
    exact Nat.min_zero _
  have undone : foldedTwice.failure "undo" = none := by decide +kernel
  have done : (foldedTwice.executed "undo").failure "plane [4 0 0] [1 0 0] cut undo color [7]" =
      none := by decide +kernel
  have entries : ((foldedTwice.executed "undo").executed
      "plane [4 0 0] [1 0 0] cut undo color [7]").history.map tokens =
        [["paper", "[square]", "new"], ["plane", "[1|0|0]", "[1|0|0]", "reflect"],
          ["color", "[7]"]] := by decide +kernel
  obtain ⟨succeeds, model, -, -, -, -, -, history⟩ :=
    undo_composes forgets (by decide +kernel) (by decide +kernel) undone done
  exact ⟨done, succeeds, model, history.trans entries⟩

end Session

end PaperFolding
