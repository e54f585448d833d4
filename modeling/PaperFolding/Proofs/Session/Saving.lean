import PaperFolding.Proofs.Files.Replacement
import PaperFolding.Proofs.Script.Lines
import PaperFolding.Proofs.Script.Naming
import PaperFolding.Proofs.Session.History
import PaperFolding.Proofs.Session.Joining
import PaperFolding.Proofs.Session.Loading

/-!
A history that is saved as a script and loaded again. The script is one text: it leads to the same paper
only if each entry is read in it as it was read alone.
-/

namespace PaperFolding

open Script

namespace Session

/-! ## The entries of a history make and fold paper -/

theorem OnlyFolds.append {front back : List String} (folds : OnlyFolds front)
    (folds' : OnlyFolds back) : OnlyFolds (front ++ back) := by
  intro word among
  exact (List.mem_append.1 among).elim (folds word) (folds' word)

theorem OnlyFolds.of_unknown {row : List String} (unknown : ∀ word ∈ row, isKnown word = false) :
    OnlyFolds row := by
  intro word among command found
  rw [isKnown_eq_false_iff.1 (unknown word among)] at found
  cases found

theorem OnlyFolds.parameter {row : List String} (folds : OnlyFolds row) (parameter : Parameter) :
    OnlyFolds (parameter.name :: row) := by
  intro word among command found
  rcases List.mem_cons.1 among with rfl | inside
  · rw [Parameter.ofWord?_name] at found
    cases found
  · exact folds word inside command found

theorem onlyFolds_leads (leads : List Lead) {front back : List String}
    (named : misnamesFile (front ++ (leads.flatMap Lead.row ++ back)) = false) :
    OnlyFolds (leads.flatMap Lead.row) := by
  induction leads generalizing front with
  | nil => exact fun _ among => absurd among List.not_mem_nil
  | cons lead leads induction =>
      rw [List.flatMap_cons, List.append_assoc] at named
      rw [List.flatMap_cons]
      have here : OnlyFolds lead.row :=
        (OnlyFolds.of_unknown (lead.unknown_row named)).parameter lead.parameter
      rw [← List.append_assoc] at named
      exact here.append (induction named)

theorem onlyFolds_constructionRow (stage : Stage) : OnlyFolds stage.constructionRow := by
  have group {word : String} (bracket : '[' ∈ word.toList) : OnlyFolds [word] :=
    .of_unknown (List.forall_mem_singleton.2 (isKnown_of_bracket bracket))
  unfold Stage.constructionRow
  split
  · exact (group (by simp [presetToken])).parameter .paper
  · induction stage.corners with
    | nil => exact fun _ among => absurd among List.not_mem_nil
    | cons corner corners induction =>
        exact ((group (by simp [cornerToken])).parameter .corner).append induction

/-- An entry makes and folds paper, unless a file that it names is taken for a word. -/
def NamedFolds (entry : String) : Prop :=
  misnamesFile (tokens entry) = false → OnlyFolds (tokens entry)

theorem Underway.namedFolds {rest : List String} {session : Session}
    (underway : Underway (Command.new.name :: rest) session) (leads : List Lead) :
    NamedFolds (rebasedEntry (leads.map Lead.entry) session.stage.construction rest) := by
  intro named
  rw [underway.tokens_rebased leads] at named ⊢
  have whole : misnamesFile ([] ++ (leads.flatMap Lead.row ++
      (session.stage.constructionRow ++ Command.new.name :: rest))) = false := named
  exact (onlyFolds_leads leads whole).append
    ((onlyFolds_constructionRow _).append underway.folds)

theorem namedFolds_of_dispatch {nested : Nested} {scope : Scope}
    {takeBack : List String → Action Unit} {row : List String} {session after : Session}
    (recording : scope.recording = true) (underway : Underway row session)
    (entries : ∀ entry ∈ session.history, NamedFolds entry)
    (done : (dispatch (obey nested scope takeBack) scope row).on session = (.ok (), after)) :
    ∀ entry ∈ after.history, NamedFolds entry := by
  induction row generalizing session with
  | nil =>
      cases done
      exact entries
  | cons token rest induction =>
      obtain ⟨_, reached, obeyed, others⟩ := ok_of_bind done
      obtain ⟨next, same | ⟨rfl, -, leads, -, -, -, -, history⟩⟩ := underway.step recording obeyed
      · exact induction next (same ▸ entries) others
      · refine induction next ?_ others
        rw [history]
        exact List.forall_mem_singleton.2 (underway.namedFolds leads)

theorem namedFolds_of_foldedFrom {first session : Session} (blank : Paperless first)
    (plain : first.engine = .plain) (history : first.history = [])
    (folded : FoldedFrom first session) : ∀ entry ∈ session.history, NamedFolds entry := by
  induction folded with
  | start =>
      rw [history]
      exact fun _ among => absurd among List.not_mem_nil
  | @execute session statement earlier unmarked folds printable induction =>
      cases ends : session.failure statement with
      | some fault =>
          rw [executed_failure_history ends]
          exact induction
      | none =>
          have retraced := retraced_of_foldedFrom blank plain history earlier
          obtain ⟨after, runs, settled⟩ := running_of_success ends
          rw [settled, settle_history]
          refine namedFolds_of_dispatch rfl (retraced.underway unmarked folds (printable ends)) ?_
            runs
          rw [enter_history]
          exact List.forall_mem_append.2 ⟨induction, List.forall_mem_singleton.2 fun _ => folds⟩

/-! ## All entries as one script -/

theorem restless_obey (nested : Nested) (cancellable : Bool) (fault : Fault) :
    Restless (obey nested ⟨false, cancellable⟩ fun _ => throw fault) := by
  intro command rest rest'
  cases command <;> rfl

theorem misnamesFile_append {front back : List String}
    (named : misnamesFile (front ++ back) = false) :
    misnamesFile front = false ∧ misnamesFile back = false := by
  induction front with
  | nil => exact ⟨rfl, named⟩
  | cons word front induction =>
      cases front with
      | nil =>
          cases back with
          | nil => exact ⟨rfl, rfl⟩
          | cons next back => exact ⟨rfl, (Bool.or_eq_false_iff.1 named).2⟩
      | cons next front =>
          obtain ⟨here, others⟩ := Bool.or_eq_false_iff.1 named
          obtain ⟨named, named'⟩ := induction others
          exact ⟨Bool.or_eq_false_iff.2 ⟨here, named⟩, named'⟩

theorem misnamesFile_of_flatten {rows : List (List String)}
    (named : misnamesFile rows.flatten = false) : ∀ row ∈ rows, misnamesFile row = false := by
  induction rows with
  | nil => exact fun _ among => absurd among List.not_mem_nil
  | cons row rows induction =>
      obtain ⟨here, others⟩ := misnamesFile_append named
      exact List.forall_mem_cons.2 ⟨here, induction others⟩

theorem fits_of_firstFailure {session : Session} {entries : List String}
    (done : session.firstFailure entries = none) : ∀ row ∈ entries.map tokens, Fits row := by
  induction entries generalizing session with
  | nil => exact fun _ among => absurd among List.not_mem_nil
  | cons entry entries induction =>
      obtain ⟨here, others⟩ := firstFailure_cons.1 done
      obtain ⟨after, runs, -⟩ := running_of_success here
      exact List.forall_mem_cons.2 ⟨fits_of_dispatch runs, induction others⟩

/-- What entries come to that are executed as statements, they come to as the parts of a script. -/
theorem Alike.obeyAll {first second : Session} (alike : Alike Eq first second)
    {entries : List String} (folds : ∀ entry ∈ entries, OnlyFolds (tokens entry))
    (done : first.firstFailure entries = none) (nested : Nested) (scope : Scope)
    (takeBack : List String → Action Unit) :
    ∃ after, ((entries.map tokens).forM (Session.dispatch (Session.obey nested scope takeBack)
        scope)).on second = (.ok (), after) ∧ Alike Eq (first.executedAll entries) after := by
  induction entries generalizing first second with
  | nil => exact ⟨second, rfl, alike⟩
  | cons entry entries induction =>
      obtain ⟨here, others⟩ := firstFailure_cons.1 done
      obtain ⟨foldsHere, foldsOthers⟩ := List.forall_mem_cons.1 folds
      obtain ⟨ran, runs, settled⟩ := running_of_success here
      have entered : Alike Eq (first.enter entry) second :=
        ⟨alike.ordinary.enter entry, alike.ordinary', alike.stage, alike.content⟩
      obtain ⟨reached, runs', alike'⟩ := entered.dispatch foldsHere () ran runs
      have settles : Alike Eq (first.executed entry) reached := by
        rw [settled]
        exact ⟨alike'.ordinary.settle, alike'.ordinary', alike'.stage, alike'.content⟩
      obtain ⟨after, rest, last⟩ := induction settles foldsOthers others
      refine ⟨after, ?_, last⟩
      rw [List.map_cons, List.forM_eq_forM, List.forM_cons, on_bind_of_ok runs']
      exact rest

/-- The script that holds all entries does what they do one after the other, if it names files as it
should and no entry runs over into the next. -/
theorem Retraced.obeyed {session : Session} (retraced : Retraced session)
    (entries : ∀ entry ∈ session.history, NamedFolds entry)
    (named : ∀ entry ∈ session.history, misnamesFile (tokens entry) = false)
    (apart : runsOver false (session.history.map tokens) = false) {blank : Session}
    (paperless : Paperless blank) (nested : Nested) (cancellable : Bool) :
    ∃ after, (runBody nested cancellable (session.history.map tokens).flatten).on blank =
        (.ok (), after) ∧
      after.model.map Ledger.content = session.model.map Ledger.content := by
  obtain ⟨done, alike⟩ := retraced.replays named blank paperless
  have folds (entry : String) (among : entry ∈ session.history) : OnlyFolds (tokens entry) :=
    entries entry among (named entry among)
  obtain ⟨after, runs, alike'⟩ := (Alike.refl paperless.ordinary).obeyAll folds done nested
    ⟨false, cancellable⟩ fun _ => throw (.missing .undoableFold)
  refine ⟨after, ?_, (alike.content.trans alike'.content).symm⟩
  rw [runBody, dispatch_flatten (restless_obey nested cancellable _) apart]
  exact runs

theorem Retraced.of_obeyed {session blank after : Session} (retraced : Retraced session)
    (paperless : Paperless blank) {nested : Nested} {cancellable : Bool}
    (done : (runBody nested cancellable (session.history.map tokens).flatten).on blank =
      (.ok (), after)) :
    (∀ entry ∈ session.history, misnamesFile (tokens entry) = false) ∧
      runsOver false (session.history.map tokens) = false := by
  have named : ∀ entry ∈ session.history, misnamesFile (tokens entry) = false := fun entry among =>
    misnamesFile_of_flatten (misnamesFile_of_dispatch done) _ (List.mem_map_of_mem among)
  obtain ⟨replays, -⟩ := retraced.replays named blank paperless
  exact ⟨named, runsOver_of_fits (fits_of_firstFailure replays) (fits_of_dispatch done) nofun⟩

/-! ## Saving and loading -/

/-- The files after the history has been saved. -/
def savedFiles (path : String) (session : Session) : FileTree :=
  ((saveHistory path).on session).2.world.files

theorem readText_savedFiles {session : Session} {path : String}
    (saved : ((saveHistory path).on session).1 = .ok ()) :
    (session.savedFiles path).readText path = .ok session.historyText := by
  rw [savedFiles]
  rw [saveHistory, Action.on_of] at saved ⊢
  cases replaces : session.world.files.replace path session.historyText.toUTF8 with
  | mk result files =>
      rw [replaces] at saved
      cases result with
      | error error => cases saved
      | ok _ => exact FileTree.readText_of_replace replaces

theorem rooted_files (settings : Settings) (files : FileTree) (operator : Operator) :
    (rooted settings files operator).world.files = files := rfl

theorem paperless_opening (settings : Settings) (files : FileTree) (operator : Operator)
    (statement group : String) :
    Paperless ((rooted settings files operator).opening statement group) :=
  ⟨⟨⟨Engine.plain_foldsPlainly, rfl, rfl⟩, rfl⟩, rfl⟩

/-- A history whose entries close their comments and brackets, and that has been saved, can be loaded and
leads to the same paper exactly if no entry names a file like a known word and no entry begins with
words that a parameter of an entry before it takes. -/
theorem saved_history_loads_iff {settings : Settings} {files : FileTree} {operator : Operator}
    {session : Session} {path : String}
    (folded : FoldedFrom (ofSettings settings .plain (.quiet files operator)) session)
    (closed : ∀ entry ∈ session.history, Closed entry) (nameable : Nameable path)
    (saved : ((saveHistory path).on session).1 = .ok ()) (settings' : Settings)
    (operator' : Operator) :
    ((rooted settings' (session.savedFiles path) operator').failure (loadOf path) = none ∧
        ((rooted settings' (session.savedFiles path) operator').executed
            (loadOf path)).model.map Ledger.content = session.model.map Ledger.content) ↔
      (∀ entry ∈ session.history, misnamesFile (tokens entry) = false) ∧
        runsOver false (session.history.map tokens) = false := by
  have blank := paperless_ofSettings Engine.plain_foldsPlainly settings files operator
  have retraced := retraced_of_foldedFrom blank rfl rfl folded
  have entries := namedFolds_of_foldedFrom blank rfl rfl folded
  obtain ⟨group, loads, rfl⟩ := exists_loads nameable
  have found : (rooted settings' (session.savedFiles (argument group))
      operator').world.files.readText (argument group) = .ok session.historyText := by
    rw [rooted_files, readText_savedFiles saved]
  obtain ⟨failure, model⟩ := loads.of_loading (Nat.le_refl _) rfl found
  have paperless := paperless_opening settings' (session.savedFiles (argument group)) operator'
    (loadOf (argument group)) group
  have whole : tokens session.historyText = (session.history.map tokens).flatten := by
    rw [historyText, tokens_lines closed, List.flatMap_def]
  rw [loading, whole] at failure model
  constructor
  · rintro ⟨done, -⟩
    rw [failure, faultOf_eq_none] at done
    exact retraced.of_obeyed paperless (Prod.ext done rfl)
  · rintro ⟨named, apart⟩
    obtain ⟨after, runs, same⟩ := retraced.obeyed entries named apart paperless _ true
    rw [runs] at failure model
    exact ⟨failure, by rw [model failure, same]⟩

theorem saved_history_loads_iff_colored :
    colored.history = ["color [1] paper [square] new plane [1 0 0] [1 0 0]", "reflect"] ∧
      ((saveHistory "h").on colored).1 = .ok () ∧
      (rooted .standard (colored.savedFiles "h") .absent).failure (loadOf "h") = none ∧
      ((rooted .standard (colored.savedFiles "h") .absent).executed
        (loadOf "h")).model.map Ledger.content = colored.model.map Ledger.content := by
  have saved : ((saveHistory "h").on colored).1 = .ok () := by decide +kernel
  have closed : ∀ entry ∈ colored.history, Closed entry := by decide +kernel
  have loads := (saved_history_loads_iff foldedFrom_colored closed (by decide +kernel) saved .standard
    .absent).2
    ⟨by decide +kernel, by decide +kernel⟩
  exact ⟨by decide +kernel, saved, loads⟩

/-- The last entry begins with a word that is not known. In the script `color` takes it. -/
def spilling : List String :=
  ["paper [square] new", "color [1]", "shiny plane [1 0 0] [1 0 0] reflect"]

theorem spilling_not_loaded :
    FoldedFrom fresh (fresh.executedAll spilling) ∧ fresh.firstFailure spilling = none ∧
      (fresh.executedAll spilling).model.isSome = true ∧
      ((saveHistory "h").on (fresh.executedAll spilling)).1 = .ok () ∧
      (rooted .standard ((fresh.executedAll spilling).savedFiles "h") .absent).failure
        (loadOf "h") = some (.malformed "color") := by
  refine ⟨?_, ?_⟩
  · exact .execute (.execute (.execute .start (by decide +kernel) (by decide +kernel)
      fun _ => by decide +kernel) (by decide +kernel) (by decide +kernel)
      fun _ => by decide +kernel) (by decide +kernel) (by decide +kernel) fun _ => by decide +kernel
  · decide +kernel

end Session

end PaperFolding
