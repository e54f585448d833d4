import PaperFolding.Proofs.Session.Rewriting
import PaperFolding.Proofs.Session.Rollback

/-!
Whether the history of a session leads another session to where this one is. Statements that make and
fold paper leave such a history behind, except for one that names a file like a word that is known: a
rewritten history can hold such a name.
-/

namespace PaperFolding

open Script

namespace Session

/-! ## Statements one after the other -/

def executedAll (session : Session) (statements : List String) : Session :=
  statements.foldl executed session

def firstFailure : Session → List String → Option Fault
  | _, [] => none
  | session, statement :: statements =>
      match session.failure statement with
      | some fault => some fault
      | none => firstFailure (session.executed statement) statements

theorem firstFailure_cons {session : Session} {statement : String} {statements : List String} :
    session.firstFailure (statement :: statements) = none ↔
      session.failure statement = none ∧
        (session.executed statement).firstFailure statements = none := by
  rw [firstFailure]
  cases session.failure statement <;> simp

theorem firstFailure_append {session : Session} {front back : List String} :
    session.firstFailure (front ++ back) = none ↔
      session.firstFailure front = none ∧ (session.executedAll front).firstFailure back = none := by
  induction front generalizing session with
  | nil => simp [firstFailure, executedAll]
  | cons statement front induction =>
      rw [List.cons_append, firstFailure_cons, firstFailure_cons, induction, and_assoc]
      rfl

theorem executedAll_cons (session : Session) (statement : String) (statements : List String) :
    session.executedAll (statement :: statements) =
      (session.executed statement).executedAll statements := rfl

theorem executedAll_append (session : Session) (front back : List String) :
    session.executedAll (front ++ back) = (session.executedAll front).executedAll back :=
  List.foldl_append

/-! ## Names of files -/

/-- A statement that names a file like a known word fails, as the name is taken for that word. -/
theorem misnamesFile_of_dispatch {run : Command → List String → Action Unit} {scope : Scope}
    {row : List String} {session after : Session}
    (done : (dispatch run scope row).on session = (.ok (), after)) : misnamesFile row = false := by
  induction row generalizing session with
  | nil => rfl
  | cons word rest induction =>
      obtain ⟨_, reached, obeyed, others⟩ := ok_of_bind done
      cases rest with
      | nil => rfl
      | cons next rest =>
          rw [misnamesFile, induction others, Bool.or_false, Bool.and_eq_false_iff,
            decide_eq_false_iff_not, or_iff_not_imp_left, not_not]
          rintro rfl
          rw [Bool.eq_false_iff]
          intro known
          obtain ⟨setting, reads, -⟩ := obeyToken_parameter obeyed
          rw [taken_known known] at reads
          cases reads

theorem misnamesFile_of_success {session : Session} {statement : String}
    (done : session.failure statement = none) : misnamesFile (tokens statement) = false := by
  obtain ⟨after, runs, -⟩ := running_of_success done
  exact misnamesFile_of_dispatch runs

theorem misnamesFile_of_firstFailure {session : Session} {statements : List String}
    (done : session.firstFailure statements = none) :
    ∀ statement ∈ statements, misnamesFile (tokens statement) = false := by
  induction statements generalizing session with
  | nil => simp
  | cons statement statements induction =>
      obtain ⟨here, others⟩ := firstFailure_cons.1 done
      exact List.forall_mem_cons.2 ⟨misnamesFile_of_success here, induction others⟩

/-! ## Statements that make and fold paper -/

theorem Ordinary.enter {session : Session} (ordinary : Ordinary session) (statement : String) :
    Ordinary (session.enter statement) := ordinary.same rfl rfl

theorem Ordinary.settle {session : Session} (ordinary : Ordinary session) : Ordinary session.settle :=
  ordinary.same rfl rfl

theorem Alike.enter {staged : Stage → Stage → Prop} {first second : Session}
    (alike : Alike staged first second) (statement statement' : String) :
    Alike staged (first.enter statement) (second.enter statement') :=
  ⟨alike.ordinary.enter statement, alike.ordinary'.enter statement', alike.stage, alike.content⟩

theorem Alike.settle {staged : Stage → Stage → Prop} {first second : Session}
    (alike : Alike staged first second) : Alike staged first.settle second.settle :=
  ⟨alike.ordinary.settle, alike.ordinary'.settle, alike.stage, alike.content⟩

theorem Alike.executed {first second : Session} (alike : Alike Eq first second)
    {statement : String} (folds : OnlyFolds (tokens statement))
    (done : first.failure statement = none) :
    second.failure statement = none ∧
      Alike Eq (first.executed statement) (second.executed statement) := by
  obtain ⟨after, runs, settled⟩ := running_of_success done
  obtain ⟨after', runs', reached⟩ := (alike.enter statement statement).dispatch folds () after runs
  obtain ⟨done', settled'⟩ := success_of_running runs'
  refine ⟨done', ?_⟩
  rw [settled, settled']
  exact reached.settle

theorem scriptsLoaded_of_onlyFolds {statement : String} (folds : OnlyFolds (tokens statement))
    (session : Session) : session.scriptsLoaded statement = [] := by
  refine loadedAlong_eq_nil (fun token among found => ?_) _
  have outside : Command.load ∉ foldingCommands := by decide
  exact outside (folds token among .load found)

theorem not_mem_of_onlyFolds {row : List String} (folds : OnlyFolds row) {command : Command}
    (other : command ∉ foldingCommands) : command.name ∉ row := by
  intro among
  exact other (folds command.name among command command.ofWord?_name)

/-! ## Ordinary sessions stay ordinary -/

namespace Ordinary

theorem running {session : Session} (ordinary : Ordinary session) {statement : String}
    (folds : OnlyFolds (tokens statement)) : Ordinary (session.running statement).2 := by
  have admits : ∀ text ∈ statement :: session.scriptsLoaded statement,
      ordinaryConduct.Admits (tokens text) := by
    rw [scriptsLoaded_of_onlyFolds folds]
    intro text among word inside command found
    obtain rfl := List.mem_singleton.1 among
    have permitted : ∀ command ∈ foldingCommands, command ≠ .compile ∧ command ≠ .undo := by
      decide
    exact permitted command (folds word inside command found)
  exact leads_runRecorded trivial session statement admits (ordinary.enter statement)

theorem rewind {session : Session} (ordinary : Ordinary session) (target : Nat) :
    Ordinary (session.rewind target) := by
  have undoes : Follows ordinaryConduct (undoSheet Command.undo.name) :=
    follows_fold fun _ _ ordinary => ordinary.same rfl rfl
  have redoes : Follows ordinaryConduct (redoSheet Command.redo.name) :=
    follows_fold fun _ _ ordinary => ordinary.same rfl rfl
  unfold Session.rewind
  split
  · exact ordinary
  · split
    · exact leads_repeating undoes _ session ordinary
    · exact leads_repeating redoes _ session ordinary

theorem rollback {session : Session} (ordinary : Ordinary session) (transaction : Transaction) :
    Ordinary (session.rollback transaction) := by
  have returned : Ordinary (session.returning transaction.entries) := ordinary.same rfl rfl
  have rewound : Ordinary ((session.returning transaction.entries).rewinding transaction.depth) := by
    cases transaction.depth with
    | none => exact returned
    | some depth => exact returned.rewind depth
  exact rewound.same rfl rfl

theorem executed {session : Session} (ordinary : Ordinary session) {statement : String}
    (folds : OnlyFolds (tokens statement)) : Ordinary (session.executed statement) := by
  cases ends : session.failure statement with
  | none =>
      rw [executed_of_success ends]
      exact (ordinary.running folds).settle
  | some fault =>
      rw [executed_rollback ends]
      exact ((ordinary.running folds).rollback session.begin).settle

end Ordinary

/-! ## The history leads back -/

structure Paperless (session : Session) : Prop extends Blank session where
  model : session.model = none

/-- The history leads every such session to where this one is, unless an entry in it cannot be done. -/
structure Retraced (session : Session) : Prop where
  plain : session.engine = .plain
  ordinary : Ordinary session
  printable : session.stage.Printable
  replays : (∀ entry ∈ session.history, misnamesFile (tokens entry) = false) →
    ∀ blank, Paperless blank → blank.firstFailure session.history = none ∧
      Alike Eq session (blank.executedAll session.history)

/-- Sessions that statements lead to which make and fold paper. -/
inductive FoldedFrom (first : Session) : Session → Prop where
  | start : FoldedFrom first first
  | execute {session : Session} {statement : String} (earlier : FoldedFrom first session)
      (unmarked : spaceMark ∉ statement.toList) (folds : OnlyFolds (tokens statement))
      (printable : session.failure statement = none →
        ∀ corner ∈ stagedCorners (tokens statement), corner.Printable) :
      FoldedFrom first (session.executed statement)

theorem paperless_ofSettings {engine : Engine} (foldsPlainly : engine.FoldsPlainly)
    (settings : Settings) (files : FileTree) (operator : Operator) :
    Paperless (ofSettings settings engine (.quiet files operator)) :=
  ⟨⟨⟨foldsPlainly, rfl, rfl⟩, rfl⟩, rfl⟩

namespace Retraced

variable {session : Session} {statement : String}

theorem start {first : Session} (blank : Paperless first) (plain : first.engine = .plain)
    (history : first.history = []) : Retraced first where
  plain := plain
  ordinary := blank.ordinary
  printable := by
    rw [blank.stage]
    exact fun corner among => absurd among List.not_mem_nil
  replays := by
    rw [history]
    intro _ other isBlank
    exact ⟨rfl, blank.ordinary, isBlank.ordinary, blank.stage.trans isBlank.stage.symm,
      by rw [blank.model, executedAll, List.foldl_nil, isBlank.model]⟩

theorem failed (retraced : Retraced session) (folds : OnlyFolds (tokens statement)) {fault : Fault}
    (failed : session.failure statement = some fault) : Retraced (session.executed statement) := by
  have stage := executed_failure_stage failed
  have history := executed_failure_history failed
  have ordinary := retraced.ordinary.executed folds
  have content := executed_failure_content retraced.plain failed (by
    rw [scriptsLoaded_of_onlyFolds folds]
    intro text among
    obtain rfl := List.mem_singleton.1 among
    have undo : Command.undo ∉ foldingCommands := by decide
    have redo : Command.redo ∉ foldingCommands := by decide
    exact ⟨not_mem_of_onlyFolds folds undo, not_mem_of_onlyFolds folds redo⟩)
  refine ⟨(session.executed_engine statement).trans retraced.plain, ordinary, ?_, ?_⟩
  · rw [stage]
    exact retraced.printable
  · rw [history]
    intro named blank isBlank
    obtain ⟨done, alike⟩ := retraced.replays named blank isBlank
    exact ⟨done, ordinary, alike.ordinary', stage.trans alike.stage, content.trans alike.content⟩

theorem underway (retraced : Retraced session) (unmarked : spaceMark ∉ statement.toList)
    (folds : OnlyFolds (tokens statement))
    (printable : ∀ corner ∈ stagedCorners (tokens statement), corner.Printable) :
    Underway (tokens statement) (session.enter statement) where
  ordinary := retraced.ordinary.enter statement
  rows := row_tokens unmarked
  folds := folds
  printable := retraced.printable
  corners := printable
  leads := fun _ => ⟨[], rfl⟩

theorem retold {ended : Session} {entry : String} (retells : Retells entry ended)
    (named : misnamesFile (tokens entry) = false) {blank : Session} (isBlank : Blank blank) :
    blank.firstFailure [entry] = none ∧ Alike Eq ended.settle (blank.executedAll [entry]) := by
  have entered : Blank (blank.enter entry) :=
    ⟨isBlank.ordinary.enter entry, isBlank.stage⟩
  obtain ⟨told, runs, alike⟩ :=
    retells (blank.enter entry) entered named (.ofDepth blank.nestingBound) ⟨true, true⟩
      (replayUndo (.ofDepth blank.nestingBound) true 1)
  obtain ⟨done, settled⟩ := success_of_running runs
  refine ⟨firstFailure_cons.2 ⟨done, rfl⟩, ?_⟩
  rw [executedAll, List.foldl_cons, List.foldl_nil, settled]
  exact alike.settle

theorem succeeded (retraced : Retraced session) (unmarked : spaceMark ∉ statement.toList)
    (folds : OnlyFolds (tokens statement))
    (printable : ∀ corner ∈ stagedCorners (tokens statement), corner.Printable)
    (done : session.failure statement = none) : Retraced (session.executed statement) := by
  obtain ⟨after, runs, settled⟩ := running_of_success done
  obtain ⟨ended, kept⟩ :=
    history_of_dispatch rfl (retraced.underway unmarked folds printable) runs
  refine ⟨(session.executed_engine statement).trans retraced.plain, ?_, ?_, ?_⟩
  · rw [settled]
    exact ended.ordinary.settle
  · rw [settled, settle_stage]
    exact ended.printable
  · intro named blank isBlank
    rcases kept with appended | ⟨entry, rewritten, retells⟩
    · have history : (session.executed statement).history = session.history ++ [statement] := by
        rw [settled, settle_history, appended, enter_history]
      rw [history] at named ⊢
      obtain ⟨front, alike⟩ :=
        retraced.replays (fun entry among => named entry (List.mem_append_left _ among)) blank isBlank
      obtain ⟨back, alike'⟩ := alike.executed folds done
      refine ⟨firstFailure_append.2 ⟨front, firstFailure_cons.2 ⟨back, rfl⟩⟩, ?_⟩
      rw [executedAll_append]
      exact alike'
    · have history : (session.executed statement).history = [entry] := by
        rw [settled, settle_history, rewritten]
      rw [history] at named ⊢
      rw [settled]
      exact retold retells (named entry (List.mem_singleton_self entry)) isBlank.toBlank

end Retraced

theorem retraced_of_foldedFrom {first session : Session} (blank : Paperless first)
    (plain : first.engine = .plain) (history : first.history = [])
    (folded : FoldedFrom first session) : Retraced session := by
  induction folded with
  | start => exact .start blank plain history
  | @execute session statement earlier unmarked folds printable induction =>
      cases ends : session.failure statement with
      | none => exact induction.succeeded unmarked folds (printable ends) ends
      | some fault => exact induction.failed folds ends

/-- Doing a history again succeeds and leads to the same sheet and the same stage exactly if no entry
names a file like a word that is known. -/
theorem history_replays_iff {settings : Settings} {files : FileTree} {operator : Operator}
    {session : Session}
    (folded : FoldedFrom (ofSettings settings .plain (.quiet files operator)) session)
    (files' : FileTree) (operator' : Operator) :
    (firstFailure (ofSettings settings .plain (.quiet files' operator')) session.history = none ∧
        (executedAll (ofSettings settings .plain (.quiet files' operator'))
            session.history).model.map Ledger.content = session.model.map Ledger.content ∧
        (executedAll (ofSettings settings .plain (.quiet files' operator'))
            session.history).stage = session.stage) ↔
      ∀ entry ∈ session.history, misnamesFile (tokens entry) = false := by
  have blank := paperless_ofSettings Engine.plain_foldsPlainly settings files operator
  have retraced := retraced_of_foldedFrom blank rfl rfl folded
  constructor
  · exact fun replays => misnamesFile_of_firstFailure replays.1
  · intro named
    obtain ⟨done, alike⟩ :=
      retraced.replays named _
        (paperless_ofSettings Engine.plain_foldsPlainly settings files' operator')
    exact ⟨done, alike.content.symm, alike.stage.symm⟩

def colored : Session :=
  (fresh.executed "color [1] paper [square] new plane [1 0 0] [1 0 0]").executed "reflect"

theorem foldedFrom_colored : FoldedFrom fresh colored :=
  .execute (.execute .start (by decide +kernel) (by decide +kernel) fun _ => by decide +kernel)
    (by decide +kernel) (by decide +kernel) fun _ => by decide +kernel

theorem history_replays_iff_colored :
    FoldedFrom fresh colored ∧
      colored.history = ["color [1] paper [square] new plane [1 0 0] [1 0 0]", "reflect"] ∧
      fresh.firstFailure colored.history = none := by
  exact ⟨foldedFrom_colored, by decide +kernel,
    ((history_replays_iff foldedFrom_colored (.empty []) .absent).2 (by decide +kernel)).1⟩

/-- The blank at the end of the name is lost when the history is rewritten. -/
def misnaming : String := "filename new\u00a0 paper [square] new"

theorem misnaming_not_replayed :
    FoldedFrom fresh (fresh.executed misnaming) ∧
      (fresh.executed misnaming).history = ["filename new paper [square] new"] ∧
      fresh.firstFailure (fresh.executed misnaming).history = some (.malformed "filename") := by
  refine ⟨.execute .start (by decide +kernel) (by decide +kernel) fun _ => by decide +kernel, ?_, ?_⟩
  · decide +kernel
  · decide +kernel

end Session

end PaperFolding
