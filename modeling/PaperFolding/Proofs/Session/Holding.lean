import PaperFolding.Proofs.Session.Folding
import PaperFolding.Proofs.Session.History

/-!
A plain session and the ledger it holds. To which ledger a statement that folds once, undoes or redoes
leads can be told from the ledger alone.
-/

namespace PaperFolding

open Script

namespace Session

theorem on_obeyToken_undo {session : Session} (unstopped : session.world.watch.stopped = false)
    {ledger : Ledger} (held : session.model = some ledger) (nested : Nested) (scope : Scope)
    (takeBack : List String → Action Unit) (rest : List String) {after : Session}
    (undone : (undoOr (takeBack rest)).on session = (.ok (), after)) :
    (obeyToken (obey nested scope takeBack) scope Command.undo.name rest).on session =
      (.ok (), after) := by
  have checked : (checkpoint scope).on session = (.ok (), session) := by
    simp [unstopped]
  have granted : (permit .undo).on session = (.ok (), session) :=
    on_permit_of_user rfl (by rw [held, Option.isNone_some, Bool.and_false])
  rw [obeyToken_command_eq, on_bind_of_ok checked, obeyCommand, on_bind_of_ok granted,
    Session.obey, on_bind_of_ok undone]
  simp

/-- The session in which the engine has undone the last record and the stage is clear again. -/
def undone (session : Session) (ledger : Ledger) : Session :=
  { (session.noting .undo).holding (ledger.windTo (ledger.depth - 1)) with stage := .empty }

theorem on_undoSheet {session : Session} (plain : session.engine = .plain) {ledger : Ledger}
    (held : session.model = some ledger) (more : 0 < ledger.depth) :
    (undoSheet Command.undo.name).on session =
      (.ok (), (session.noting .undo).holding (ledger.windTo (ledger.depth - 1))) := by
  have taken : Engine.plain.undo ledger = .ok (ledger.windTo (ledger.depth - 1)) :=
    ledger.undo_of_depth more
  simp only [undoSheet, on_fold, held, plain, taken]

theorem on_obeyToken_undo_of_depth {session : Session}
    (unstopped : session.world.watch.stopped = false) (plain : session.engine = .plain)
    {ledger : Ledger} (held : session.model = some ledger) (more : 0 < ledger.depth)
    (nested : Nested) (scope : Scope) (takeBack : List String → Action Unit) (rest : List String) :
    (obeyToken (obey nested scope takeBack) scope Command.undo.name rest).on session =
      (.ok (), session.undone ledger) := by
  have ready : 0 < session.depth.getD 0 := by
    rw [depth, held, plain]
    exact more
  refine on_obeyToken_undo unstopped held nested scope takeBack rest ?_
  rw [undoOr, on_bind_of_ok (Action.on_get session)]
  dsimp only
  rw [if_pos ready, on_bind_of_ok (on_undoSheet plain held more), on_clearStage]
  rfl

theorem on_undoOr_of_bare {session : Session} (bare : session.depth.getD 0 = 0)
    {otherwise : Action Unit} {after : Session} (done : otherwise.on session = (.ok (), after)) :
    (undoOr otherwise).on session = (.ok (), { after with stage := .empty }) := by
  have unready : ¬ 0 < session.depth.getD 0 := by
    rw [bare]
    exact Nat.lt_irrefl 0
  rw [undoOr, on_bind_of_ok (Action.on_get session)]
  dsimp only
  rw [if_neg unready, on_bind_of_ok done, on_clearStage]

theorem on_forM_concat {run : String → Action Unit} {entries : List String} {entry : String}
    {session middle after : Session} (front : (entries.forM run).on session = (.ok (), middle))
    (last : (run entry).on middle = (.ok (), after)) :
    ((entries ++ [entry]).forM run).on session = (.ok (), after) := by
  rw [List.forM_eq_forM] at front ⊢
  rw [List.forM_append, on_bind_of_ok front, List.forM_cons, List.forM_nil, on_bind_of_ok last]
  rfl

theorem on_forM_singleton {run : String → Action Unit} {entry : String} {session after : Session}
    (runs : (run entry).on session = (.ok (), after)) :
    ([entry].forM run).on session = (.ok (), after) :=
  @on_forM_concat run [] entry session session after rfl runs

theorem on_replay_of {nested : Nested} {session after : Session}
    (runs : (session.history.forM fun entry => runBody nested false (tokens entry)).on
      (session.withAccess .dev) = (.ok (), after)) :
    (replay nested).on session = (.ok (), after.withAccess session.access) := by
  rw [replay, on_bind_of_ok (Action.on_get session), on_atLevel, runs]

/-! ## Starting over -/

section StartingOver

variable {session : Session} {recording : Bool} {steps : Nat}

theorem dropOwed_zero (entries : List String) : dropOwed entries 0 = entries := by
  cases entries <;> rfl

theorem dropOwed_one {entry : String} (other : undoCount? entry = none) (earlier : List String) :
    dropOwed (entry :: earlier) 1 = earlier := by
  rw [dropOwed, other]
  exact dropOwed_zero earlier

theorem dropOwed_suffix (entries : List String) (owed : Nat) : dropOwed entries owed <:+ entries := by
  induction entries generalizing owed with
  | nil => exact List.suffix_rfl
  | cons entry earlier induction =>
      cases owed with
      | zero => exact ⟨[], dropOwed_zero _⟩
      | succ owed =>
          rw [dropOwed]
          split
          · exact (induction _).trans (List.suffix_cons entry earlier)
          · exact (induction _).trans (List.suffix_cons entry earlier)

theorem shortenedHistory_prefix {draft : Draft} (inHistory : draft.inHistory = true)
    (kept : List String) (entry : String) :
    shortenedHistory draft true steps (kept ++ [entry]) <+: kept := by
  rw [shortenedHistory, inHistory, Bool.true_and, if_pos rfl, List.reverse_append,
    List.reverse_singleton, List.singleton_append, List.tail_cons]
  have shorter := List.reverse_prefix.2
    (dropOwed_suffix kept.reverse (if draft.applied then steps - 1 else steps))
  rwa [List.reverse_reverse] at shorter

theorem shortening_history :
    (session.shortening recording steps).history =
      shortenedHistory session.draft recording steps session.history :=
  rewind_history 0 (session.dropping recording steps)

theorem shortening_engine : (session.shortening recording steps).engine = session.engine :=
  rewinding_engine (some 0) (session.dropping recording steps)

theorem shortening_model (plain : session.engine = .plain) :
    (session.shortening recording steps).model = session.model.map fun ledger => ledger.windTo 0 :=
  rewind_plain 0 (session.dropping recording steps) plain

theorem blank_shortening (ordinary : Ordinary session) :
    Blank (session.shortening recording steps) := by
  have dropped : Ordinary (session.dropping recording steps) := ordinary.same rfl rfl
  exact ⟨(dropped.rewind 0).same rfl rfl, rfl⟩

theorem on_replayUndo {nested : Nested} {replayed : Session} (rest : List String)
    (runs : (replay nested).on (session.shortening recording steps) = (.ok (), replayed)) :
    (replayUndo nested recording steps rest).on session =
      (.ok (), replayed.resuming recording rest) := by
  have drops : (modify (Session.shortening recording steps) : Action Unit).on session =
      (.ok (), session.shortening recording steps) := rfl
  rw [replayUndo, on_bind_of_ok drops, on_bind_of_ok runs]
  rfl

/-- What follows in the statement becomes the entry of the running statement. -/
theorem resuming_of_more {rest : List String} (more : (restore rest).isEmpty = false)
    (session : Session) :
    session.resuming true rest =
      { session.rewriting (session.history ++ [restore rest]) with draft := ⟨true, false, []⟩ } := by
  rw [resuming, more]
  rfl

theorem resuming_cases (rest : List String) (session : Session) :
    session.resuming true rest = session ∨
      session.resuming true rest =
        { session.rewriting (session.history ++ [restore rest]) with
          draft := ⟨true, false, []⟩ } := by
  cases more : (restore rest).isEmpty with
  | true =>
      left
      rw [resuming, more]
      rfl
  | false => exact .inr (resuming_of_more more session)

theorem replay_of_ok {nested : Nested} {after : Session}
    (done : (replay nested).on session = (.ok (), after)) :
    ∃ reached, (session.history.forM fun entry => runBody nested false (tokens entry)).on
        (session.withAccess .dev) = (.ok (), reached) ∧
      after = reached.withAccess session.access := by
  obtain ⟨_, _, got, done⟩ := ok_of_bind done
  cases got
  rw [on_atLevel] at done
  obtain ⟨ran, rfl⟩ := Prod.mk.inj done
  exact ⟨_, Prod.ext ran rfl, rfl⟩

theorem replayUndo_of_ok {nested : Nested} {rest : List String} {after : Session}
    (done : (replayUndo nested recording steps rest).on session = (.ok (), after)) :
    ∃ replayed, (replay nested).on (session.shortening recording steps) = (.ok (), replayed) ∧
      after = replayed.resuming recording rest := by
  obtain ⟨_, _, drops, done⟩ := ok_of_bind done
  cases drops
  obtain ⟨_, replayed, runs, resumes⟩ := ok_of_bind done
  cases resumes
  exact ⟨replayed, runs, rfl⟩

end StartingOver

/-! ## The ledger of a plain session -/

/-- A plain session with the ledger and with no target staged. -/
structure Holds (session : Session) (ledger : Ledger) : Prop where
  ordinary : Ordinary session
  plain : session.engine = .plain
  free : session.stage.target = none
  model : session.model = some ledger

namespace Holds

variable {session : Session} {ledger : Ledger}

theorem ready (holds : Holds session ledger) : session.depth = some ledger.depth := by
  rw [depth, holds.model, holds.plain]
  rfl

theorem enter (holds : Holds session ledger) (statement : String) :
    Holds (session.enter statement) ledger :=
  ⟨holds.ordinary.enter statement, holds.plain, holds.free, holds.model⟩

theorem settle (holds : Holds session ledger) : Holds session.settle ledger :=
  ⟨holds.ordinary.settle, holds.plain, holds.free, holds.model⟩

theorem withAccess (holds : Holds session ledger) (level : Level) :
    Holds (session.withAccess level) ledger :=
  ⟨holds.ordinary.same rfl rfl, holds.plain, holds.free, holds.model⟩

theorem undo (holds : Holds session ledger) (more : 0 < ledger.depth) (nested : Nested)
    (scope : Scope) (takeBack : List String → Action Unit) (rest : List String) :
    ∃ after,
      (obeyToken (obey nested scope takeBack) scope Command.undo.name rest).on session =
        (.ok (), after) ∧
      Holds after (ledger.windTo (ledger.depth - 1)) ∧ Untold session after :=
  ⟨_, on_obeyToken_undo_of_depth holds.ordinary.unstopped holds.plain holds.model more nested scope
      takeBack rest,
    ⟨(holds.ordinary.noting .undo).same rfl rfl, holds.plain, rfl, rfl⟩, rfl, rfl, rfl⟩

theorem undoes (nested : Nested) (scope : Scope) (takeBack : List String → Action Unit)
    (count : Nat) (holds : Holds session ledger) (enough : count ≤ ledger.depth)
    (rest : List String) :
    ∃ after, Holds after (ledger.windTo (ledger.depth - count)) ∧ Untold session after ∧
      (dispatch (obey nested scope takeBack) scope
          (List.replicate count Command.undo.name ++ rest)).on session =
        (dispatch (obey nested scope takeBack) scope rest).on after := by
  induction count generalizing session ledger with
  | zero =>
      refine ⟨session, ?_, ⟨rfl, rfl, rfl⟩, rfl⟩
      rw [Nat.sub_zero, ledger.windTo_depth]
      exact holds
  | succ count induction =>
      have more : 0 < ledger.depth := Nat.lt_of_lt_of_le (Nat.succ_pos count) enough
      obtain ⟨middle, runs, next, untold⟩ :=
        holds.undo more nested scope takeBack (List.replicate count Command.undo.name ++ rest)
      have depth : (ledger.windTo (ledger.depth - 1)).depth = ledger.depth - 1 :=
        ledger.depth_windTo (Nat.sub_le _ _)
      obtain ⟨after, reached, untold', runs'⟩ := induction next (by rw [depth]; omega)
      refine ⟨after, ?_, untold.trans untold', ?_⟩
      · rw [depth, ledger.windTo_windTo] at reached
        rwa [Nat.sub_sub, Nat.add_comm 1 count] at reached
      · rw [List.replicate_succ, List.cons_append, dispatch, on_bind_of_ok runs]
        exact runs'

theorem redo (holds : Holds session ledger) {next : Ledger} (again : ledger.redo = .ok next)
    (nested : Nested) (scope : Scope) (takeBack : List String → Action Unit) :
    ∃ after,
      (dispatch (obey nested scope takeBack) scope [Command.redo.name]).on session =
        (.ok (), after) ∧
      Holds after next ∧ after.history = session.history := by
  have again : Engine.plain.redo ledger = .ok next := again
  have redoes : (redoSheet Command.redo.name).on session =
      (.ok (), (session.noting .redo).holding next) := by
    simp only [redoSheet, on_fold, holds.model, holds.plain, again]
  have granted : (permit .redo).on session = (.ok (), session) :=
    on_permit_of_user rfl (by rw [holds.model, Option.isNone_some, Bool.and_false])
  obtain ⟨after, applies, beside, stage⟩ :=
    idle_applied (scope.recording && Command.redo ≠ .undo)
      { (session.noting .redo).holding next with stage := .empty }
  have obeyed : (obeyToken (obey nested scope takeBack) scope Command.redo.name []).on session =
      (.ok (), after) := by
    rw [obeyToken_command_eq, on_bind_of_ok (on_checkpoint_of_ordinary holds.ordinary scope),
      obeyCommand, on_bind_of_ok granted, Session.obey, Session.redo, bind_assoc,
      on_bind_of_ok redoes, on_bind_of_ok (on_clearStage _)]
    simpa using applies
  have noted : Ordinary { (session.noting .redo).holding next with stage := .empty } :=
    (holds.ordinary.noting .redo).same rfl rfl
  refine ⟨after, ?_, ⟨noted.beside beside, beside.engine.trans holds.plain, ?_, beside.model⟩,
    beside.history⟩
  · rw [dispatch, on_bind_of_ok obeyed]
    rfl
  · rw [stage]
    rfl

theorem redo_of_ok (holds : Holds session ledger) {nested : Nested} {scope : Scope}
    {takeBack : List String → Action Unit} {rest : List String} {after : Session}
    (done : (dispatch (obey nested scope takeBack) scope (Command.redo.name :: rest)).on session =
      (.ok (), after)) : ∃ next, ledger.redo = .ok next := by
  obtain ⟨_, _, obeyed, -⟩ := ok_of_bind done
  obtain ⟨_, redone, -⟩ := obeyToken_command obeyed
  obtain ⟨_, _, redone, -⟩ := ok_of_bind redone
  rw [redoSheet, on_fold, holds.model] at redone
  simp only [holds.plain] at redone
  cases again : Engine.plain.redo ledger with
  | error refusal =>
      rw [again] at redone
      cases redone
  | ok next => exact ⟨next, again⟩

end Holds

/-! ## Statements and ledgers -/

theorem undoCount?_of_fold {statement : String} {command : Command} {before rest : List String}
    (folds : command ∈ plainFolds) (reads : tokens statement = before ++ command.name :: rest) :
    undoCount? statement = none := by
  have other : command.name ≠ Command.undo.name := by
    simp only [plainFolds, List.mem_cons, List.not_mem_nil, or_false] at folds
    rcases folds with rfl | rfl | rfl <;> decide
  simp [undoCount?, reads, other]

theorem undoCount?_of_undoes {count : Nat}
    (reads : tokens statement = List.replicate (count + 1) Command.undo.name) :
    undoCount? statement = some (count + 1) := by
  simp [undoCount?, reads]

theorem undoCount?_of_redo (reads : tokens statement = [Command.redo.name]) :
    undoCount? statement = none := by
  have other : Command.redo.name ≠ Command.undo.name := by decide
  simp [undoCount?, reads, other]

/-- Obeying the statement leads every plain session from the one ledger to the other. -/
def Leads (statement : String) (ledger next : Ledger) : Prop :=
  ∀ session, Holds session ledger → ∀ nested scope takeBack, ∃ after,
    (dispatch (obey nested scope takeBack) scope (tokens statement)).on session = (.ok (), after) ∧
      Holds after next ∧ after.history = session.history

section Statements

variable {session : Session} {ledger next : Ledger} {statement : String}

theorem Leads.executed (leads : Leads statement ledger next) (holds : Holds session ledger) :
    session.failure statement = none ∧ Holds (session.executed statement) next ∧
      (session.executed statement).history = session.history ++ [statement] := by
  obtain ⟨after, runs, reached, history⟩ :=
    leads (session.enter statement) (holds.enter statement) (.ofDepth session.nestingBound)
      ⟨true, true⟩ (replayUndo (.ofDepth session.nestingBound) true 1)
  have ran : session.running statement = (.ok (), after) := runs
  obtain ⟨done, settled⟩ := success_of_running ran
  rw [settled]
  exact ⟨done, reached.settle, history⟩

theorem leads_of_undoes (count : Nat)
    (reads : tokens statement = List.replicate count Command.undo.name)
    (enough : count ≤ ledger.depth) :
    Leads statement ledger (ledger.windTo (ledger.depth - count)) := by
  intro session holds nested scope takeBack
  obtain ⟨after, reached, untold, runs⟩ := holds.undoes nested scope takeBack count enough []
  rw [List.append_nil] at runs
  rw [reads]
  exact ⟨after, runs, reached, untold.history⟩

theorem leads_of_redo (reads : tokens statement = [Command.redo.name])
    (again : ledger.redo = .ok next) : Leads statement ledger next := by
  intro session holds nested scope takeBack
  rw [reads]
  exact holds.redo again nested scope takeBack

theorem leads_of_fold {command : Command} {before rest : List String}
    (once : FoldsOnce command before rest)
    (reads : tokens statement = before ++ command.name :: rest) (holds : Holds session ledger)
    (done : session.failure statement = none) :
    ∃ record, Leads statement ledger ⟨ledger.outline, ledger.journal ++ [record], []⟩ := by
  obtain ⟨ended, runs, -⟩ := running_of_success done
  rw [running, runRecorded, reads] at runs
  have entered := holds.enter statement
  obtain ⟨-, -, same, record, held, ends⟩ :=
    dispatch_foldsOnce_model once entered.ordinary.foldsPlainly entered.free runs
  rw [entered.model] at held
  cases held
  refine ⟨record, fun other holds' nested scope takeBack => ?_⟩
  have alike : Alike (Agree fun _ => False) (session.enter statement) other :=
    ⟨entered.ordinary, holds'.ordinary, ⟨fun _ => False.elim, entered.free, holds'.free⟩,
      by rw [entered.model, holds'.model]⟩
  obtain ⟨after, runs', alike'⟩ := alike.dispatch_foldsOnce once () ended runs
  obtain ⟨history, engine, same', record', held', ends'⟩ :=
    dispatch_foldsOnce_model once holds'.ordinary.foldsPlainly holds'.free runs'
  rw [holds'.model] at held'
  cases held'
  -- Both sessions have recorded the same fold, as they are alike afterwards.
  have content := alike'.content
  rw [ends, ends'] at content
  obtain ⟨-, journal⟩ := Prod.mk.inj (Option.some.inj content)
  obtain rfl : record = record' := by simpa using journal
  rw [reads]
  exact ⟨after, runs',
    ⟨alike'.ordinary', engine.trans holds'.plain, alike'.stage.free', ends'⟩, history⟩

end Statements

end Session

end PaperFolding
