import PaperFolding.Proofs.Session.Founding

/-!
An `undo` that the engine cannot do starts over on the sheet there is. It comes to what the history that
is left makes by itself, unless nothing in that history makes a sheet: then the sheet stays.
-/

namespace PaperFolding

open Script

namespace Session

/-! ## Statements under way -/

/-- The history of a running statement with so many tokens left: its own entry comes last. -/
inductive Carries (row : List String) : List String → Prop where
  | loose {kept front : List String} {entry : String} (founded : Founded kept)
      (reads : tokens entry = front ++ row) (reworks : Reworks front) :
      Carries row (kept ++ [entry])
  | built {entry : String} {front : List String}
      (rebuilds : Rebuilds (tokens entry) (front ++ row)) (reworks : Reworks front) :
      Carries row [entry]

namespace Carries

variable {token : String} {row rest history : List String}

theorem advance (carries : Carries (token :: rest) history) (step : Reworks [token]) :
    Carries rest history := by
  cases carries with
  | loose founded reads reworks =>
      exact .loose founded (by rw [reads, List.append_cons]) (reworks.append step)
  | built rebuilds reworks =>
      rw [List.append_cons] at rebuilds
      exact .built rebuilds (reworks.append step)

theorem founded (carries : Carries [] history) : Founded history := by
  cases carries with
  | loose founded reads reworks =>
      rw [List.append_nil] at reads
      exact founded.concat (reads ▸ reworks)
  | built rebuilds reworks =>
      rw [List.append_nil] at rebuilds
      exact .built rebuilds reworks fun entry among => absurd among List.not_mem_nil

theorem split (carries : Carries row history) :
    ∃ kept entry, history = kept ++ [entry] ∧ Founded kept := by
  cases carries with
  | loose founded => exact ⟨_, _, rfl, founded⟩
  | built => exact ⟨[], _, rfl, .loose fun entry among => absurd among List.not_mem_nil⟩

end Carries

/-- Where a statement that makes, folds and undoes has come to. -/
structure Reshaping (row : List String) (session : Session) : Prop extends Writable row session where
  shapes : OnlyShapes row
  plain : session.engine = .plain
  carries : Carries row session.history
  inHistory : session.draft.inHistory = true

structure Founds (session : Session) : Prop where
  ordinary : Ordinary session
  plain : session.engine = .plain
  printable : session.stage.Printable
  founded : Founded session.history

theorem reworks_singleton {token : String}
    (shapes : ∀ command, Keyword.ofWord? token = some (.command command) →
      command ∈ shapingCommands) (other : token ≠ Command.new.name) : Reworks [token] where
  shapes := by
    intro word among
    rw [List.mem_singleton.1 among]
    exact shapes
  makesNone among := other (List.mem_singleton.1 among).symm

theorem reworks_nil : Reworks [] :=
  ⟨fun _ among => absurd among List.not_mem_nil, List.not_mem_nil⟩

namespace Reshaping

variable {nested : Nested} {scope : Scope} {takeBack : List String → Action Unit}
  {token : String} {rest row : List String} {session after : Session}

theorem shapes_tail (reshaping : Reshaping (token :: rest) session) : OnlyShapes rest :=
  fun word among => reshaping.shapes word (List.mem_cons_of_mem token among)

theorem carries_tail (reshaping : Reshaping (token :: rest) session)
    (other : token ≠ Command.new.name) : Carries rest session.history :=
  reshaping.carries.advance
    (reworks_singleton (reshaping.shapes token (List.mem_cons_self ..)) other)

theorem making_step (reshaping : Reshaping (Command.new.name :: rest) session)
    (recording : scope.recording = true) {ledger : Ledger}
    (paper : session.stage.hasPaper = true) (sheet : session.stage.sheet = .ok ledger)
    (ends : after = if scope.recording && Command.new ≠ .undo then
        (session.making scope rest ledger).applying
      else session.making scope rest ledger) : Reshaping rest after := by
  obtain ⟨beside, stage, lead⟩ := beside_applied ends
  obtain ⟨writable, leads, history⟩ := reshaping.toWritable.making_step recording beside
    (stage.trans rfl) (lead.trans (draft_making scope rest ledger session))
  refine ⟨writable, reshaping.shapes_tail, ?_, ?_, ?_⟩
  · rw [beside.engine, making_engine, reshaping.plain]
  · have rebuilds : Rebuilds (tokens (rebasedEntry (leads.map Lead.entry)
        session.stage.construction rest)) ([] ++ rest) :=
      ⟨session, ledger, leads, reshaping.ordinary, reshaping.printable, paper, sheet,
        reshaping.tokens_rebased leads⟩
    rw [history]
    exact .built rebuilds reworks_nil
  · rw [beside.inHistory, making, rebasing, if_pos recording]

/-- Every token but `undo` leaves the statement under way. -/
theorem step (reshaping : Reshaping (token :: rest) session) (other : token ≠ Command.undo.name)
    (recording : scope.recording = true)
    (done : (obeyToken (obey nested scope takeBack) scope token rest).on session =
      (.ok (), after)) : Reshaping rest after := by
  have folds := folds_of_other other (reshaping.shapes token (List.mem_cons_self ..))
  have ordinary := reshaping.ordinary.obeyToken folds done
  rcases obeyToken_cases done with ⟨rfl, idle⟩ | ⟨parameter, setting, found, reads, ends⟩ |
    ⟨command, reached, found, obeyed, ends⟩
  · have notNew : token ≠ Command.new.name := by
      rintro rfl
      rw [Command.isFragment_name, Command.ofWord?_name] at idle
      rcases idle with fragment | unknown
      · cases fragment
      · cases unknown
    exact ⟨reshaping.idle_step, reshaping.shapes_tail, reshaping.plain,
      reshaping.carries_tail notNew, reshaping.inHistory⟩
  · have notNew : token ≠ Command.new.name := by
      rintro rfl
      rw [Command.ofWord?_name] at found
      cases found
    obtain ⟨writable, beside⟩ := reshaping.parameter_step found reads ends
    refine ⟨writable, reshaping.shapes_tail, beside.engine.trans reshaping.plain, ?_, ?_⟩
    · rw [beside.history]
      exact reshaping.carries_tail notNew
    · rw [beside.inHistory, reshaping.inHistory]
  · obtain rfl : command.name = token := Keyword.name_of_ofWord? found
    by_cases makes : command = .new
    · subst makes
      obtain ⟨paper, ledger, sheet, rfl⟩ := making_of_ok reshaping.ordinary obeyed
      exact reshaping.making_step recording paper sheet ends
    · obtain ⟨beside, stage, lead⟩ := beside_applied ends
      have plainly := (List.mem_cons.1 (folds command found)).resolve_left makes
      have notNew : command.name ≠ Command.new.name := fun same =>
        makes (by simpa [Command.ofWord?_name] using congrArg Keyword.ofWord? same)
      obtain ⟨writable, history, engine⟩ :=
        reshaping.fold_step plainly obeyed ordinary beside stage lead
      refine ⟨writable, reshaping.shapes_tail, engine.trans reshaping.plain, ?_, ?_⟩
      · rw [history]
        exact reshaping.carries_tail notNew
      · rw [beside.inHistory, (obey_frame plainly obeyed).1.draft, reshaping.inHistory]

theorem undone (reshaping : Reshaping (Command.undo.name :: rest) session) (ledger : Ledger) :
    Reshaping rest (session.undone ledger) := by
  have notNew : Command.undo.name ≠ Command.new.name := by decide
  exact ⟨reshaping.untold_step ((reshaping.ordinary.noting .undo).same rfl rfl) rfl rfl,
    reshaping.shapes_tail, reshaping.plain, reshaping.carries_tail notNew, reshaping.inHistory⟩

/-- What starting over has left, before what follows in the statement becomes an entry. -/
theorem restarted (reshaping : Reshaping (Command.undo.name :: rest) session)
    {replayed : Session} (runs : (replay nested).on (session.shortening true 1) =
      (.ok (), replayed)) :
    Founded replayed.history ∧ Ordinary replayed ∧ replayed.engine = .plain := by
  obtain ⟨kept, entry, history, founded⟩ := reshaping.carries.split
  have shortened : (session.shortening true 1).history <+: kept := by
    rw [shortening_history, history]
    exact shortenedHistory_prefix reshaping.inHistory kept entry
  have blank : Blank (session.shortening true 1) := blank_shortening reshaping.ordinary
  obtain ⟨reached, ran, rfl⟩ := replay_of_ok runs
  obtain ⟨reshaped, -⟩ := (founded.of_prefix shortened).replays (blank.withAccess .dev)
    (shortening_engine.trans reshaping.plain) ran
  refine ⟨?_, reshaped.ordinary.same rfl rfl, reshaped.plain⟩
  have same : reached.history = (session.shortening true 1).history := reshaped.history
  show Founded reached.history
  rw [same]
  exact founded.of_prefix shortened

theorem resumed (reshaping : Reshaping (Command.undo.name :: rest) session) {replayed : Session}
    (more : rest ≠ []) (founded : Founded replayed.history) (ordinary : Ordinary replayed)
    (plain : replayed.engine = .plain) :
    Reshaping rest { replayed.resuming true rest with stage := .empty } := by
  have rows := reshaping.rows.tail
  have reads : tokens (restore rest) = [] ++ rest := tokens_restore rows
  rw [resuming_of_more (isEmpty_restore_of_row rows more) replayed]
  exact
    { ordinary := ordinary.same rfl rfl
      rows := rows
      printable := fun corner among => absurd among List.not_mem_nil
      corners := fun corner among => reshaping.corners corner (List.mem_append_right _ among)
      leads := fun _ => ⟨[], rfl⟩
      shapes := reshaping.shapes_tail
      plain := plain
      carries := .loose founded reads reworks_nil
      inHistory := rfl }

theorem founds (reshaping : Reshaping row session)
    (done : (dispatch (obey nested ⟨true, true⟩ (replayUndo nested true 1)) ⟨true, true⟩ row).on
      session = (.ok (), after)) : Founds after := by
  induction row generalizing session with
  | nil =>
      cases done
      exact ⟨reshaping.ordinary, reshaping.plain, reshaping.printable, reshaping.carries.founded⟩
  | cons token rest induction =>
      obtain ⟨_, reached, obeyed, others⟩ := ok_of_bind done
      by_cases undoes : token = Command.undo.name
      · subst undoes
        obtain ⟨ledger, held, ⟨more, rfl⟩ | ⟨-, taken, takes, rfl⟩⟩ :=
          undo_cases reshaping.plain obeyed
        · exact induction (reshaping.undone ledger) others
        · obtain ⟨replayed, runs, rfl⟩ := replayUndo_of_ok takes
          obtain ⟨founded, ordinary, plain⟩ := reshaping.restarted runs
          cases rest with
          | nil =>
              cases others
              exact ⟨ordinary.same rfl rfl, plain, fun corner among => absurd among List.not_mem_nil,
                founded⟩
          | cons next rest =>
              exact induction
                (reshaping.resumed (List.cons_ne_nil next rest) founded ordinary plain) others
      · exact induction (reshaping.step undoes rfl obeyed) others

end Reshaping

/-! ## Whole runs -/

/-- Sessions that statements lead to which make, fold and undo with success. -/
inductive ShapedFrom (first : Session) : Session → Prop where
  | start : ShapedFrom first first
  | execute {session : Session} {statement : String} (earlier : ShapedFrom first session)
      (unmarked : spaceMark ∉ statement.toList) (shapes : OnlyShapes (tokens statement))
      (printable : ∀ corner ∈ stagedCorners (tokens statement), corner.Printable)
      (done : session.failure statement = none) :
      ShapedFrom first (session.executed statement)

section Runs

variable {session : Session} {statement : String}

theorem Founds.enter (founds : Founds session) (unmarked : spaceMark ∉ statement.toList)
    (shapes : OnlyShapes (tokens statement))
    (printable : ∀ corner ∈ stagedCorners (tokens statement), corner.Printable) :
    Reshaping (tokens statement) (session.enter statement) where
  ordinary := founds.ordinary.enter statement
  rows := row_tokens unmarked
  printable := founds.printable
  corners := printable
  leads := fun _ => ⟨[], rfl⟩
  shapes := shapes
  plain := founds.plain
  carries := .loose founds.founded (List.nil_append _).symm reworks_nil
  inHistory := rfl

theorem founds_of_shapedFrom {settings : Settings} {files : FileTree} {operator : Operator}
    (shaped : ShapedFrom (ofSettings settings .plain (.quiet files operator)) session) :
    Founds session := by
  induction shaped with
  | start =>
      have blank := paperless_ofSettings Engine.plain_foldsPlainly settings files operator
      exact ⟨blank.ordinary, rfl, fun corner among => absurd among List.not_mem_nil,
        .loose fun entry among => absurd among List.not_mem_nil⟩
  | @execute session statement earlier unmarked shapes printable done induction =>
      obtain ⟨after, runs, settled⟩ := running_of_success done
      have founds := (induction.enter unmarked shapes printable).founds runs
      rw [settled]
      exact ⟨founds.ordinary.settle, founds.plain, founds.printable, founds.founded⟩

/-- The one `undo` of a statement on a sheet without folds: what is left of the history has been done
again on that sheet. -/
theorem Founds.restarted (founds : Founds session)
    (reads : tokens statement = [Command.undo.name])
    (bare : ∀ ledger ∈ session.model, ledger.journal = [])
    (done : session.failure statement = none) :
    ∃ blank after, Blank blank ∧ blank.engine = .plain ∧ blank.model.isSome = true ∧
      Founded (session.executed statement).history ∧
      ((session.executed statement).history.forM fun entry =>
        runBody (.ofDepth session.nestingBound) false (tokens entry)).on blank = (.ok (), after) ∧
      (session.executed statement).model = after.model := by
  obtain ⟨ended, runs, settled⟩ := running_of_success done
  rw [running, runRecorded, reads] at runs
  obtain ⟨_, reached, obeyed, others⟩ := ok_of_bind runs
  cases others
  have plain : (session.enter statement).engine = .plain := founds.plain
  obtain ⟨ledger, held, ⟨more, -⟩ | ⟨-, taken, takes, rfl⟩⟩ := undo_cases plain obeyed
  · rw [Ledger.depth, bare ledger held] at more
    exact absurd more (Nat.lt_irrefl 0)
  · obtain ⟨replayed, replays, rfl⟩ := replayUndo_of_ok takes
    obtain ⟨after, ran, rfl⟩ := replay_of_ok replays
    have ordinary := founds.ordinary.enter statement
    have blank : Blank ((session.enter statement).shortening true 1) := blank_shortening ordinary
    have present : ((session.enter statement).shortening true 1).model.isSome = true := by
      rw [shortening_model plain, held]
      rfl
    have front : ((session.enter statement).shortening true 1).history <+: session.history := by
      rw [shortening_history]
      exact shortenedHistory_prefix rfl session.history statement
    have founded := founds.founded.of_prefix front
    obtain ⟨reshaped, -⟩ :=
      founded.replays (blank.withAccess .dev) (shortening_engine.trans plain) ran
    have history : (session.executed statement).history =
        ((session.enter statement).shortening true 1).history := by
      rw [settled]
      exact reshaped.history
    rw [history]
    refine ⟨_, after, blank.withAccess .dev, shortening_engine.trans plain, present, founded, ran,
      ?_⟩
    rw [settled]
    rfl

theorem executed_failure_bare (plain : session.engine = .plain)
    (bare : ∀ ledger ∈ session.model, ledger.journal = []) {fault : Fault}
    (failed : session.failure statement = some fault) :
    (session.executed statement).model.map Ledger.content = session.model.map Ledger.content := by
  have onSheet : Keeps .onSheet (session.enter statement) (session.running statement).2 :=
    keeps_running fun _ _ => Course.onSheet_reversible.admits _
  have paper : Option.Rel Course.onSheet.leads session.model
      (session.running statement).2.keptPaper := onSheet.paper plain rfl
  rw [executed_of_failure failed, recover_of_keeps onSheet]
  refine (content_of_keeps onSheet plain).2 fun ledger held => ?_
  rw [Option.mem_def.1 held] at paper
  cases found : (session.running statement).2.keptPaper with
  | none =>
      rw [found] at paper
      cases paper
  | some kept =>
      rw [bare ledger held]
      exact ⟨kept, rfl, List.nil_prefix⟩

/-- An `undo` on a sheet without folds that succeeds comes to what the history that is left makes by
itself, exactly if an entry of it makes a sheet; one that fails leaves sheet and history alone. -/
theorem restarted_matches_iff {settings : Settings} {files : FileTree} {operator : Operator}
    (shaped : ShapedFrom (ofSettings settings .plain (.quiet files operator)) session)
    (reads : tokens statement = [Command.undo.name])
    (bare : ∀ ledger ∈ session.model, ledger.journal = []) (files' : FileTree)
    (operator' : Operator) :
    (session.failure statement = none →
      (((executedAll (ofSettings settings .plain (.quiet files' operator'))
            (session.executed statement).history).model.map Ledger.content =
          (session.executed statement).model.map Ledger.content ↔
        ∃ entry ∈ (session.executed statement).history, Command.new.name ∈ tokens entry) ∧
      ((∃ entry ∈ (session.executed statement).history, Command.new.name ∈ tokens entry) →
        firstFailure (ofSettings settings .plain (.quiet files' operator'))
          (session.executed statement).history = none))) ∧
      ∀ fault, session.failure statement = some fault →
        (session.executed statement).history = session.history ∧
          (session.executed statement).model.map Ledger.content =
            session.model.map Ledger.content := by
  have founds := founds_of_shapedFrom shaped
  have paperless := paperless_ofSettings Engine.plain_foldsPlainly settings files' operator'
  refine ⟨fun done => ?_, fun fault failed => ?_⟩
  · obtain ⟨blank, after, isBlank, plain, present, founded, runs, model⟩ :=
      founds.restarted reads bare done
    obtain ⟨reshaped, replays⟩ := founded.replays isBlank plain runs
    refine ⟨⟨fun same => ?_, fun makes => ?_⟩, fun makes => ?_⟩
    · by_contra makesNone
      have here : after.model.isSome = true := reshaped.present present
      rw [founded.none makesNone paperless.model, model] at same
      rw [← Option.isSome_map (f := Ledger.content), ← same] at here
      cases here
    · obtain ⟨-, twins⟩ := replays makes _ paperless.toBlank rfl
      rw [model, twins.alike.content]
    · exact (replays makes _ paperless.toBlank rfl).1
  · exact ⟨executed_failure_history failed, executed_failure_bare founds.plain bare failed⟩

end Runs

def squared : Session := fresh.executed "paper [square] new"

theorem shapedFrom_squared : ShapedFrom fresh squared :=
  .execute .start (by decide +kernel) (by decide +kernel) (by decide +kernel) (by decide +kernel)

theorem restarted_matches_iff_colored :
    ((squared.executed "color [1]").executed "undo").history = ["paper [square] new"] ∧
      (fresh.executedAll ((squared.executed "color [1]").executed "undo").history).model.map
          Ledger.content =
        ((squared.executed "color [1]").executed "undo").model.map Ledger.content := by
  have shaped : ShapedFrom fresh (squared.executed "color [1]") :=
    .execute shapedFrom_squared (by decide +kernel) (by decide +kernel) (by decide +kernel)
      (by decide +kernel)
  exact ⟨by decide +kernel,
    ((restarted_matches_iff shaped (by decide +kernel) (by decide +kernel) (.empty []) .absent).1
      (by decide +kernel)).1.2 (by decide +kernel)⟩

/-- Nothing is left of the history, but the sheet is. -/
theorem restarted_keeps_sheet :
    ShapedFrom fresh squared ∧ (∀ ledger ∈ squared.model, ledger.journal = []) ∧
      squared.failure "undo" = none ∧ (squared.executed "undo").history = [] ∧
      (squared.executed "undo").model.isSome = true ∧
      (fresh.executedAll (squared.executed "undo").history).model = none := by
  refine ⟨shapedFrom_squared, ?_, ?_, ?_, ?_, ?_⟩
  all_goals decide +kernel

end Session

end PaperFolding
