import PaperFolding.Proofs.Session.Holding
import PaperFolding.Proofs.Session.Opening

/-!
Undoing by starting over agrees with undoing by the engine. The one does all but the last entries of the
history again, the other takes the last records back; both come to the same sheet as long as every entry
after the first is one fold.
-/

namespace PaperFolding

open Script

namespace Session

/-! ## Histories that do a journal again -/

structure Reached (before : Session) (content : Outline × List Record) (after : Session) : Prop where
  ordinary : Ordinary after
  engine : after.engine = before.engine
  history : after.history = before.history
  free : after.stage.target = none
  content : after.model.map Ledger.content = some content

/-- Doing the entry again in a session leads to a sheet with the content, without touching the
history. -/
def Redoes (session : Session) (entry : String) (content : Outline × List Record) : Prop :=
  ∀ nested takeBack, ∃ after,
    (dispatch (obey nested ⟨false, false⟩ takeBack) ⟨false, false⟩ (tokens entry)).on session =
      (.ok (), after) ∧ Reached session content after

/-- A history whose first entry makes the sheet, and each later one adds a record. -/
inductive Recalls (outline : Outline) : List String → List Record → Prop where
  | sheet {entry : String} (makes : ∀ session, Blank session → Redoes session entry (outline, [])) :
      Recalls outline [entry] []
  | fold {history : List String} {entry : String} {journal : List Record} {record : Record}
      (earlier : Recalls outline history journal) (other : undoCount? entry = none)
      (folds : ∀ session, Ordinary session → session.stage.target = none →
        session.model.map Ledger.content = some (outline, journal) →
        Redoes session entry (outline, journal ++ [record])) :
      Recalls outline (history ++ [entry]) (journal ++ [record])

namespace Recalls

variable {outline : Outline} {history : List String} {journal : List Record}

theorem dropLast (recalls : Recalls outline history journal) (some : journal ≠ []) :
    ∃ front entry, history = front ++ [entry] ∧ undoCount? entry = none ∧
      Recalls outline front journal.dropLast := by
  cases recalls with
  | sheet => exact absurd rfl some
  | @fold front entry journal record earlier other folds =>
      refine ⟨front, entry, rfl, other, ?_⟩
      rw [List.dropLast_concat]
      exact earlier

theorem replays (recalls : Recalls outline history journal) {session : Session}
    (blank : Blank session) (nested : Nested) :
    ∃ after,
      (history.forM fun entry => runBody nested false (tokens entry)).on session =
        (.ok (), after) ∧ Reached session (outline, journal) after := by
  induction recalls with
  | @sheet entry makes =>
      obtain ⟨after, runs, reached⟩ := makes session blank nested fun _ =>
        throw (.missing .undoableFold)
      have runs : (runBody nested false (tokens entry)).on session = (.ok (), after) := runs
      exact ⟨after, on_forM_singleton runs, reached⟩
  | @fold front entry journal record earlier other folds induction =>
      obtain ⟨middle, before, reached⟩ := induction
      obtain ⟨after, runs, last⟩ := folds middle reached.ordinary reached.free reached.content nested
        fun _ => throw (.missing .undoableFold)
      have runs : (runBody nested false (tokens entry)).on middle = (.ok (), after) := runs
      exact ⟨after, on_forM_concat before runs, last.ordinary,
        last.engine.trans reached.engine, last.history.trans reached.history, last.free,
        last.content⟩

end Recalls

/-! ## Undoing by starting over -/

theorem shortenedHistory_one {draft : Draft} (inHistory : draft.inHistory = true)
    (applied : draft.applied = false) {front : List String} {entry statement : String}
    (other : undoCount? entry = none) :
    shortenedHistory draft true 1 (front ++ [entry] ++ [statement]) = front := by
  rw [shortenedHistory, inHistory, applied, Bool.true_and, if_pos rfl, if_neg Bool.false_ne_true]
  rw [List.reverse_append, List.reverse_append, List.reverse_singleton, List.singleton_append,
    List.tail_cons, List.reverse_singleton, List.singleton_append, dropOwed_one other,
    List.reverse_reverse]

theorem depth_forgetful {session : Session} (forgets : session.engine = .forgetful) :
    session.depth.getD 0 = 0 := by
  rw [depth, forgets]
  cases session.model with
  | none => rfl
  | some ledger => exact Nat.min_zero _

/-- Where a statement that only undoes stands in a session whose engine undoes nothing: it is itself the
last entry of the history, and the entries before it recall the sheet. -/
structure Poised (outline : Outline) (session : Session) (history : List String)
    (journal : List Record) : Prop where
  ordinary : Ordinary session
  forgets : session.engine = .forgetful
  content : session.model.map Ledger.content = some (outline, journal)
  recalls : Recalls outline history journal
  entered : ∃ statement, session.history = history ++ [statement]
  inHistory : session.draft.inHistory = true
  applied : session.draft.applied = false

theorem Reached.withAccess {before after : Session} {content : Outline × List Record}
    (reached : Reached before content after) (level : Level) :
    Reached before content (after.withAccess level) where
  ordinary := reached.ordinary.same rfl rfl
  engine := reached.engine
  history := reached.history
  free := reached.free
  content := reached.content

theorem Recalls.replay {outline : Outline} {journal : List Record} {session : Session}
    (recalls : Recalls outline session.history journal) (blank : Blank session) (nested : Nested) :
    ∃ after, (replay nested).on session = (.ok (), after) ∧
      Reached session (outline, journal) after := by
  obtain ⟨after, runs, reached⟩ := recalls.replays (blank.withAccess .dev) nested
  have lowered := reached.withAccess session.access
  exact ⟨_, on_replay_of runs, lowered.ordinary, lowered.engine, lowered.history, lowered.free,
    lowered.content⟩

namespace Poised

variable {outline : Outline} {session : Session} {history : List String} {journal : List Record}

theorem on_replayUndo (poised : Poised outline session history journal) (some : journal ≠ [])
    (nested : Nested) (rest : List String) :
    ∃ front replayed, Recalls outline front journal.dropLast ∧ Ordinary replayed ∧
      replayed.engine = .forgetful ∧ replayed.history = front ∧
      replayed.model.map Ledger.content = Option.some (outline, journal.dropLast) ∧
      (replayUndo nested true 1 rest).on session = (.ok (), replayed.resuming true rest) := by
  obtain ⟨front, entry, rfl, other, recalls⟩ := poised.recalls.dropLast some
  obtain ⟨statement, entered⟩ := poised.entered
  have shortened : (session.shortening true 1).history = front := by
    rw [shortening_history, entered, shortenedHistory_one poised.inHistory poised.applied other]
  have forgets : (session.shortening true 1).engine = .forgetful :=
    shortening_engine.trans poised.forgets
  rw [← shortened] at recalls
  obtain ⟨replayed, runs, reached⟩ := recalls.replay (blank_shortening poised.ordinary) nested
  exact ⟨front, replayed, by rwa [shortened] at recalls, reached.ordinary,
    reached.engine.trans forgets, reached.history.trans shortened, reached.content,
    Session.on_replayUndo rest runs⟩

end Poised

/-- A session whose engine undoes nothing and whose history recalls its sheet. -/
structure Recalling (outline : Outline) (session : Session) (journal : List Record) : Prop where
  ordinary : Ordinary session
  forgets : session.engine = .forgetful
  free : session.stage.target = none
  content : session.model.map Ledger.content = some (outline, journal)
  recalls : Recalls outline session.history journal

theorem isEmpty_restore_undo (rest : List String) :
    (restore (Command.undo.name :: rest)).isEmpty = false := by
  rw [isEmpty_restore]
  cases rest <;> simp [written, Command.name, List.intercalate]

section Undoing

variable {outline : Outline} {session : Session} {history : List String} {journal : List Record}

theorem Poised.undo (poised : Poised outline session history journal) (some : journal ≠ [])
    (nested : Nested) (rest : List String) :
    ∃ front replayed, Recalls outline front journal.dropLast ∧ Ordinary replayed ∧
      replayed.engine = .forgetful ∧ replayed.history = front ∧
      replayed.model.map Ledger.content = Option.some (outline, journal.dropLast) ∧
      (obeyToken (obey nested ⟨true, true⟩ (replayUndo nested true 1)) ⟨true, true⟩
        Command.undo.name rest).on session =
          (.ok (), { replayed.resuming true rest with stage := .empty }) := by
  obtain ⟨front, replayed, recalls, ordinary, forgets, kept, content, runs⟩ :=
    poised.on_replayUndo some nested rest
  refine ⟨front, replayed, recalls, ordinary, forgets, kept, content, ?_⟩
  cases held : session.model with
  | none =>
      have present := poised.content
      rw [held] at present
      cases present
  | some ledger =>
      exact on_obeyToken_undo poised.ordinary.unstopped held nested ⟨true, true⟩
        (replayUndo nested true 1) rest (on_undoOr_of_bare (depth_forgetful poised.forgets) runs)

theorem Poised.undo_last (poised : Poised outline session history journal) (some : journal ≠ [])
    (nested : Nested) :
    ∃ after,
      (obeyToken (obey nested ⟨true, true⟩ (replayUndo nested true 1)) ⟨true, true⟩
        Command.undo.name []).on session = (.ok (), after) ∧
      Recalling outline after journal.dropLast := by
  obtain ⟨front, replayed, recalls, ordinary, forgets, kept, content, runs⟩ :=
    poised.undo some nested []
  have idle : replayed.resuming true [] = replayed := rfl
  rw [idle] at runs
  refine ⟨_, runs, ordinary.same rfl rfl, forgets, rfl, content, ?_⟩
  show Recalls outline replayed.history journal.dropLast
  rw [kept]
  exact recalls

/-- Words behind an `undo` become an entry of their own, which is the running statement from then on. -/
theorem Poised.undo_more (poised : Poised outline session history journal) (some : journal ≠ [])
    (nested : Nested) {rest : List String} (more : (restore rest).isEmpty = false) :
    ∃ front after,
      (obeyToken (obey nested ⟨true, true⟩ (replayUndo nested true 1)) ⟨true, true⟩
        Command.undo.name rest).on session = (.ok (), after) ∧
      Poised outline after front journal.dropLast := by
  obtain ⟨front, replayed, recalls, ordinary, forgets, kept, content, runs⟩ :=
    poised.undo some nested rest
  rw [resuming_of_more more replayed] at runs
  refine ⟨front, _, runs, ordinary.same rfl rfl, forgets, content, recalls,
    ⟨restore rest, ?_⟩, rfl, rfl⟩
  rw [← kept]
  rfl

theorem take_dropLast (journal : List Record) (count : Nat) :
    journal.dropLast.take (journal.dropLast.length - count) =
      journal.take (journal.length - (count + 1)) := by
  rw [List.length_dropLast, List.dropLast_eq_take, List.take_take]
  congr 1
  omega

theorem Poised.undoes (nested : Nested) (count : Nat)
    (poised : Poised outline session history journal) (enough : count < journal.length) :
    ∃ after,
      (dispatch (obey nested ⟨true, true⟩ (replayUndo nested true 1)) ⟨true, true⟩
        (List.replicate (count + 1) Command.undo.name)).on session = (.ok (), after) ∧
      Recalling outline after (journal.take (journal.length - (count + 1))) := by
  have some : journal ≠ [] := List.ne_nil_of_length_pos (Nat.zero_lt_of_lt enough)
  induction count generalizing session history journal with
  | zero =>
      obtain ⟨after, runs, recalling⟩ := poised.undo_last some nested
      refine ⟨after, ?_, ?_⟩
      · rw [List.replicate_one, dispatch, on_bind_of_ok runs]
        rfl
      · rw [List.dropLast_eq_take] at recalling
        exact recalling
  | succ count induction =>
      have more : (restore (List.replicate (count + 1) Command.undo.name)).isEmpty = false :=
        isEmpty_restore_undo _
      -- The words that are left have become the running entry, so the session is poised again.
      obtain ⟨front, middle, runs, next⟩ := poised.undo_more some nested more
      have shorter : count < journal.dropLast.length := by
        rw [List.length_dropLast]
        omega
      obtain ⟨after, runs', recalling⟩ :=
        induction next shorter (List.ne_nil_of_length_pos (Nat.zero_lt_of_lt shorter))
      refine ⟨after, ?_, ?_⟩
      · rw [List.replicate_succ, dispatch, on_bind_of_ok runs]
        exact runs'
      · rw [take_dropLast] at recalling
        exact recalling

end Undoing

/-! ## Undoing by the engine -/

structure Standing (outline : Outline) (session : Session) (journal : List Record) : Prop where
  ordinary : Ordinary session
  plain : session.engine = .plain
  free : session.stage.target = none
  content : session.model.map Ledger.content = some (outline, journal)

namespace Standing

variable {outline : Outline} {session : Session} {journal : List Record}

theorem held (standing : Standing outline session journal) :
    ∃ ledger, session.model = some ledger ∧ ledger.outline = outline ∧ ledger.journal = journal := by
  have content := standing.content
  cases found : session.model with
  | none =>
      rw [found] at content
      cases content
  | some ledger =>
      rw [found] at content
      cases content
      exact ⟨ledger, rfl, rfl, rfl⟩

theorem holds (standing : Standing outline session journal) :
    ∃ ledger, Holds session ledger ∧ ledger.outline = outline ∧ ledger.journal = journal := by
  obtain ⟨ledger, found, sheet, records⟩ := standing.held
  exact ⟨ledger, ⟨standing.ordinary, standing.plain, standing.free, found⟩, sheet, records⟩

theorem undoes (nested : Nested) (scope : Scope) (takeBack : List String → Action Unit)
    (count : Nat) (standing : Standing outline session journal) (enough : count ≤ journal.length) :
    ∃ after,
      (dispatch (obey nested scope takeBack) scope
        (List.replicate count Command.undo.name)).on session = (.ok (), after) ∧
      Standing outline after (journal.take (journal.length - count)) := by
  obtain ⟨ledger, holds, rfl, rfl⟩ := standing.holds
  obtain ⟨after, reached, -, runs⟩ := holds.undoes nested scope takeBack count enough []
  rw [List.append_nil] at runs
  refine ⟨after, runs, reached.ordinary, reached.plain, reached.free, ?_⟩
  rw [reached.model, Option.map_some, ledger.windTo_content (Nat.sub_le _ _)]
  rfl

end Standing

/-! ## Both ways side by side -/

/-- The same sheet in a session that undoes by its engine and in one that starts over. -/
structure Matched (outline : Outline) (native forgetful : Session) (journal : List Record) :
    Prop where
  standing : Standing outline native journal
  recalling : Recalling outline forgetful journal

theorem Standing.of_executed {outline : Outline} {session after : Session} {journal : List Record}
    (standing : Standing outline after journal) {statement : String}
    (runs : session.running statement = (.ok (), after)) :
    Standing outline (session.executed statement) journal := by
  rw [(success_of_running runs).2]
  exact ⟨standing.ordinary.settle, standing.plain, standing.free, standing.content⟩

theorem Recalling.of_executed {outline : Outline} {session after : Session}
    {journal : List Record} (recalling : Recalling outline after journal) {statement : String}
    (runs : session.running statement = (.ok (), after)) :
    Recalling outline (session.executed statement) journal := by
  rw [(success_of_running runs).2]
  exact ⟨recalling.ordinary.settle, recalling.forgets, recalling.free, recalling.content,
    recalling.recalls⟩

namespace Matched

variable {outline : Outline} {native forgetful : Session} {journal : List Record}
  {statement : String}

theorem content (matched : Matched outline native forgetful journal) :
    native.model.map Ledger.content = forgetful.model.map Ledger.content :=
  matched.standing.content.trans matched.recalling.content.symm

theorem undo (matched : Matched outline native forgetful journal) {count : Nat}
    (undoes : tokens statement = List.replicate (count + 1) Command.undo.name)
    (enough : count < journal.length) :
    Matched outline (native.executed statement) (forgetful.executed statement)
      (journal.take (journal.length - (count + 1))) := by
  obtain ⟨⟨ordinary, plain, free, content⟩, recalling⟩ := matched
  have entered : Standing outline (native.enter statement) journal :=
    ⟨ordinary.enter statement, plain, free, content⟩
  have poised : Poised outline (forgetful.enter statement) forgetful.history journal :=
    ⟨recalling.ordinary.enter statement, recalling.forgets, recalling.content, recalling.recalls,
      ⟨statement, rfl⟩, rfl, rfl⟩
  obtain ⟨after, runs, standing⟩ := entered.undoes (.ofDepth native.nestingBound) ⟨true, true⟩
    (replayUndo (.ofDepth native.nestingBound) true 1) (count + 1) enough
  obtain ⟨after', runs', recalling'⟩ :=
    poised.undoes (.ofDepth forgetful.nestingBound) count enough
  rw [← undoes] at runs runs'
  exact ⟨standing.of_executed runs, recalling'.of_executed runs'⟩

theorem redoes_of_fold {command : Command} {before rest : List String}
    (once : FoldsOnce command before rest)
    (reads : tokens statement = before ++ command.name :: rest) {first after : Session}
    (standing : Standing outline first journal) {journal' : List Record}
    (content : after.model.map Ledger.content = some (outline, journal')) {nested : Nested}
    {scope : Scope} {takeBack : List String → Action Unit}
    (runs : (dispatch (obey nested scope takeBack) scope (tokens statement)).on first =
      (.ok (), after)) {session : Session} (ordinary : Ordinary session)
    (free : session.stage.target = none)
    (same : session.model.map Ledger.content = some (outline, journal)) :
    Redoes session statement (outline, journal') := by
  intro nested' takeBack'
  have alike : Alike (Agree fun _ => False) first session :=
    ⟨standing.ordinary, ordinary, ⟨fun _ => False.elim, standing.free, free⟩,
      standing.content.trans same.symm⟩
  rw [reads] at runs ⊢
  obtain ⟨after', runs', alike'⟩ := alike.dispatch_foldsOnce once () after runs
  obtain ⟨history, engine, -⟩ :=
    dispatch_foldsOnce_content once ordinary.foldsPlainly free runs'
  exact ⟨after', runs', alike'.ordinary', engine, history, alike'.stage.free',
    alike'.content.symm.trans content⟩

theorem fold (matched : Matched outline native forgetful journal) {command : Command}
    {before rest : List String} (once : FoldsOnce command before rest)
    (reads : tokens statement = before ++ command.name :: rest)
    (done : native.failure statement = none) :
    ∃ record, Matched outline (native.executed statement) (forgetful.executed statement)
      (journal ++ [record]) := by
  obtain ⟨⟨ordinary, plain, free, content⟩, recalling⟩ := matched
  have entered : Standing outline (native.enter statement) journal :=
    ⟨ordinary.enter statement, plain, free, content⟩
  obtain ⟨after, runs, -⟩ := running_of_success done
  have ran := runs
  rw [running, runRecorded, reads] at ran
  obtain ⟨-, engine, ledger, record, held, adds⟩ :=
    dispatch_foldsOnce_content once entered.ordinary.foldsPlainly entered.free ran
  obtain ⟨rfl, rfl⟩ : ledger.outline = outline ∧ ledger.journal = journal := by
    have present := entered.content
    rw [held] at present
    exact Prod.mk.inj (Option.some.inj present)
  -- What else is staged in the two sessions may differ: the statement stages what its fold reads.
  have alike : Alike (Agree fun _ => False) (native.enter statement) (forgetful.enter statement) :=
    ⟨entered.ordinary, recalling.ordinary.enter statement,
      ⟨fun _ => False.elim, entered.free, recalling.free⟩,
      entered.content.trans recalling.content.symm⟩
  obtain ⟨after', ran', alike'⟩ := alike.dispatch_foldsOnce once () after ran
  obtain ⟨history', engine', -⟩ :=
    dispatch_foldsOnce_content once alike.ordinary'.foldsPlainly recalling.free ran'
  have runs' : forgetful.running statement = (.ok (), after') := by
    rw [running, runRecorded, reads]
    exact ran'
  have recalls : Recalls ledger.outline (forgetful.history ++ [statement])
      (ledger.journal ++ [record]) :=
    .fold recalling.recalls (undoCount?_of_fold once.folds reads) fun session ordinary free same =>
      redoes_of_fold once reads entered adds runs ordinary free same
  have standing : Standing ledger.outline after (ledger.journal ++ [record]) :=
    ⟨alike'.ordinary, engine.trans plain, alike'.stage.free, adds⟩
  have recalling' : Recalling ledger.outline after' (ledger.journal ++ [record]) :=
    ⟨alike'.ordinary', engine'.trans recalling.forgets, alike'.stage.free',
      alike'.content.symm.trans adds, history' ▸ recalls⟩
  exact ⟨record, standing.of_executed runs, recalling'.of_executed runs'⟩

end Matched

/-! ## Making the sheet -/

section Opening

variable {session : Session}

theorem Brought.reached {before after : Session} {ledger : Ledger}
    (brought : Brought before ledger after) : Reached before ledger.content after where
  ordinary := brought.ordinary
  engine := brought.engine
  history := brought.history
  free := brought.free
  content := congrArg (Option.map Ledger.content) brought.model

theorem recalling_of_sheet {statement : String} {front : List String} (blank : Blank session)
    (forgets : session.engine = .forgetful) (sheets : OnlySheets front)
    (reads : tokens statement = front ++ [Command.new.name])
    (corners : ∀ corner ∈ stagedCorners (tokens statement), corner.Printable)
    (done : session.failure statement = none) :
    ∃ outline, Recalling outline (session.executed statement) [] := by
  obtain ⟨entry, ledger, opened⟩ := opened_of_success blank sheets reads corners done
  have content : ledger.content = (ledger.outline, []) := by
    rw [Ledger.content, opened.bare]
  refine ⟨ledger.outline, opened.ordinary, (session.executed_engine statement).trans forgets,
    opened.free, ?_, ?_⟩
  · rw [opened.model, Option.map_some, content]
  · rw [opened.history]
    refine .sheet fun bare blank nested takeBack => ?_
    obtain ⟨after, runs, brought⟩ := opened.makes bare blank nested takeBack
    exact ⟨after, runs, content ▸ brought.reached⟩

end Opening

/-! ## Whole runs -/

/-- Statements that each fold once, or undo no more than the folds in effect. -/
inductive FoldsAndUndoes : Session → List String → Prop where
  | nil (session : Session) : FoldsAndUndoes session []
  | fold {session : Session} {statement : String} {statements : List String} {command : Command}
      {before after : List String} (once : FoldsOnce command before after)
      (reads : tokens statement = before ++ command.name :: after)
      (done : session.failure statement = none)
      (others : FoldsAndUndoes (session.executed statement) statements) :
      FoldsAndUndoes session (statement :: statements)
  | undo {session : Session} {statement : String} {statements : List String} {count : Nat}
      (reads : tokens statement = List.replicate (count + 1) Command.undo.name)
      (enough : ∃ ledger ∈ session.model, count < ledger.journal.length)
      (others : FoldsAndUndoes (session.executed statement) statements) :
      FoldsAndUndoes session (statement :: statements)

theorem FoldsAndUndoes.eq_nil {session : Session} {statements : List String}
    (run : FoldsAndUndoes session statements) (ordinary : Ordinary session)
    (free : session.stage.target = none) (none : session.model = none) : statements = [] := by
  cases run with
  | nil => rfl
  | @fold _ statement _ command before after once reads done others =>
      obtain ⟨reached, runs, -⟩ := running_of_success done
      rw [running, runRecorded, reads] at runs
      obtain ⟨-, -, ledger, -, held, -⟩ :=
        dispatch_foldsOnce_content once (ordinary.enter statement).foldsPlainly free runs
      have gone : (session.enter statement).model = .none := none
      rw [gone] at held
      cases held
  | undo reads enough others =>
      obtain ⟨ledger, held, -⟩ := enough
      rw [none] at held
      cases held

theorem Matched.run {outline : Outline} {native forgetful : Session} {journal : List Record}
    {statements : List String} (matched : Matched outline native forgetful journal)
    (run : FoldsAndUndoes native statements) {part : List String} (front : part <+: statements) :
    (native.executedAll part).model.map Ledger.content =
      (forgetful.executedAll part).model.map Ledger.content := by
  induction run generalizing forgetful journal part with
  | nil =>
      rw [List.prefix_nil.1 front]
      exact matched.content
  | @fold native statement statements command before after once reads done others induction =>
      rcases List.prefix_cons_iff.1 front with rfl | ⟨part, rfl, shorter⟩
      · exact matched.content
      · obtain ⟨record, next⟩ := matched.fold once reads done
        rw [executedAll_cons, executedAll_cons]
        exact induction next shorter
  | @undo native statement statements count reads enough others induction =>
      rcases List.prefix_cons_iff.1 front with rfl | ⟨part, rfl, shorter⟩
      · exact matched.content
      · obtain ⟨ledger, held, enough⟩ := enough
        obtain ⟨same, found, -, journal⟩ := matched.standing.held
        rw [Option.mem_def, found] at held
        cases held
        rw [journal] at enough
        rw [executedAll_cons, executedAll_cons]
        exact induction (matched.undo reads enough) shorter

section First

variable {native forgetful : Session} {first : String} {front : List String}

theorem alike_of_paperless (paperless : Paperless native) (paperless' : Paperless forgetful) :
    Alike Eq native forgetful :=
  ⟨paperless.ordinary, paperless'.ordinary, paperless.stage.trans paperless'.stage.symm,
    by rw [paperless.model, paperless'.model]⟩

theorem matched_of_sheet (paperless : Paperless native) (plain : native.engine = .plain)
    (paperless' : Paperless forgetful) (forgets : forgetful.engine = .forgetful)
    (sheets : OnlySheets front) (reads : tokens first = front ++ [Command.new.name])
    (corners : ∀ corner ∈ stagedCorners (tokens first), corner.Printable)
    (done : native.failure first = none) :
    ∃ outline, Matched outline (native.executed first) (forgetful.executed first) [] := by
  have folds : OnlyFolds (tokens first) := by
    rw [reads]
    exact sheets.onlyFolds
  obtain ⟨done', alike⟩ := (alike_of_paperless paperless paperless').executed folds done
  obtain ⟨outline, recalling⟩ :=
    recalling_of_sheet paperless'.toBlank forgets sheets reads corners done'
  refine ⟨outline, ⟨alike.ordinary, (native.executed_engine first).trans plain, ?_,
    alike.content.trans recalling.content⟩, recalling⟩
  rw [alike.stage]
  exact recalling.free

theorem paperless_of_failure (paperless : Paperless native) (paperless' : Paperless forgetful)
    (folds : OnlyFolds (tokens first)) {fault : Fault} (failed : native.failure first = some fault) :
    (native.executed first).model = none ∧ (forgetful.executed first).model = none := by
  refine ⟨executed_failure_model_none failed paperless.model, ?_⟩
  cases ends : forgetful.failure first with
  | none =>
      obtain ⟨done, -⟩ := (alike_of_paperless paperless' paperless).executed folds ends
      rw [failed] at done
      cases done
  | some fault' => exact executed_failure_model_none ends paperless'.model

theorem content_of_run (paperless : Paperless native) (plain : native.engine = .plain)
    (paperless' : Paperless forgetful) (forgets : forgetful.engine = .forgetful)
    (sheets : OnlySheets front) (reads : tokens first = front ++ [Command.new.name])
    (corners : ∀ corner ∈ stagedCorners (tokens first), corner.Printable)
    {statements : List String} (run : FoldsAndUndoes (native.executed first) statements)
    {part : List String} (after : part <+: statements) :
    ((native.executed first).executedAll part).model.map Ledger.content =
      ((forgetful.executed first).executedAll part).model.map Ledger.content := by
  cases ends : native.failure first with
  | none =>
      obtain ⟨outline, matched⟩ :=
        matched_of_sheet paperless plain paperless' forgets sheets reads corners ends
      exact matched.run run after
  | some fault =>
      have folds : OnlyFolds (tokens first) := by
        rw [reads]
        exact sheets.onlyFolds
      -- Without a sheet no statement of the run could fold or undo, so there is none.
      obtain ⟨gone, gone'⟩ := paperless_of_failure paperless paperless' folds ends
      have free : (native.executed first).stage.target = none := by
        rw [executed_failure_stage ends, paperless.stage]
        rfl
      obtain rfl := run.eq_nil (paperless.ordinary.executed folds) free gone
      obtain rfl := List.prefix_nil.1 after
      rw [executedAll, executedAll, List.foldl_nil, List.foldl_nil, gone, gone']

end First

/-- Undoing by starting over leaves the same outline and the same journal as undoing by the engine,
after every statement of a run that makes a sheet, folds it and undoes folds. -/
theorem replayed_undo_agrees {settings settings' : Settings} {files files' : FileTree}
    {operator operator' : Operator} {first : String} {front statements : List String}
    (sheets : OnlySheets front) (reads : tokens first = front ++ [Command.new.name])
    (corners : ∀ corner ∈ stagedCorners (tokens first), corner.Printable)
    (run : FoldsAndUndoes
      ((ofSettings settings .plain (.quiet files operator)).executed first) statements)
    {part : List String} (after : part <+: statements) :
    ((ofSettings settings .plain (.quiet files operator)).executedAll
        (first :: part)).model.map Ledger.content =
      ((ofSettings settings' .forgetful (.quiet files' operator')).executedAll
        (first :: part)).model.map Ledger.content := by
  rw [executedAll_cons, executedAll_cons]
  exact content_of_run (paperless_ofSettings Engine.plain_foldsPlainly settings files operator) rfl
    (paperless_ofSettings Engine.forgetful_foldsPlainly settings' files' operator') rfl
    sheets reads corners run after

def folding : List String :=
  ["plane [1 0 0] [1 0 0] reflect", "angle [90] plane [0 2 0] [0 1 0] rotate", "undo undo",
    "planepoint [3 0 0] planenormal [1 1 0] cut"]

theorem replayed_undo_agrees_square :
    (fresh.executedAll ("paper [square] new" :: folding)).model.map Ledger.content =
      ((ofSettings .standard .forgetful (.quiet (.empty []) .absent)).executedAll
        ("paper [square] new" :: folding)).model.map Ledger.content := by
  have sheets : OnlySheets ["paper", "[square]"] := by decide +kernel
  have reflects : FoldsOnce .reflect ["plane", "[1|0|0]", "[1|0|0]"] [] :=
    ⟨by decide, by decide +kernel, by decide, by decide +kernel, by decide +kernel, nofun⟩
  have rotates : FoldsOnce .rotate ["angle", "[90]", "plane", "[0|2|0]", "[0|1|0]"] [] :=
    ⟨by decide, by decide +kernel, by decide, by decide +kernel, by decide +kernel,
      fun _ => by decide +kernel⟩
  have cuts : FoldsOnce .cut ["planepoint", "[3|0|0]", "planenormal", "[1|1|0]"] [] :=
    ⟨by decide, by decide +kernel, by decide, by decide +kernel, by decide +kernel, nofun⟩
  have run : FoldsAndUndoes (fresh.executed "paper [square] new") folding :=
    .fold reflects (by decide +kernel) (by decide +kernel) <|
      .fold rotates (by decide +kernel) (by decide +kernel) <|
        @FoldsAndUndoes.undo _ "undo undo" _ 1 (by decide +kernel) (by decide +kernel) <|
          .fold cuts (by decide +kernel) (by decide +kernel) (.nil _)
  exact replayed_undo_agrees sheets (by decide +kernel) (by decide +kernel) run List.prefix_rfl

end Session

end PaperFolding
