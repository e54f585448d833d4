import PaperFolding.Proofs.Session.Folding
import PaperFolding.Proofs.Session.History

/-!
A statement that only stages paper and makes it. The entry it leaves in the history makes the same sheet
in every session in which nothing is staged.
-/

namespace PaperFolding

open Script

namespace Session

def OnlySheets (row : List String) : Prop :=
  ∀ word ∈ row, ∀ keyword ∈ Keyword.ofWord? word,
    keyword = .parameter .paper ∨ keyword = .parameter .corner

instance (row : List String) : Decidable (OnlySheets row) :=
  inferInstanceAs (Decidable (∀ word ∈ row, ∀ keyword ∈ Keyword.ofWord? word, _))

theorem OnlySheets.onlyFolds {front : List String} (sheets : OnlySheets front) :
    OnlyFolds (front ++ [Command.new.name]) := by
  intro word among command found
  rcases List.mem_append.1 among with inside | last
  · rcases sheets word inside _ found with same | same <;> cases same
  · rw [List.mem_singleton.1 last, Command.ofWord?_name] at found
    cases found
    exact List.mem_cons_self ..

theorem misnamesFile_of_notMem {row : List String} (nowhere : Parameter.filename.name ∉ row) :
    misnamesFile row = false := by
  induction row with
  | nil => rfl
  | cons word rest induction =>
      rw [List.mem_cons, not_or] at nowhere
      obtain ⟨here, later⟩ := nowhere
      cases rest with
      | nil => rfl
      | cons next rest =>
          rw [misnamesFile, induction later, Bool.or_false, decide_eq_false (Ne.symm here),
            Bool.false_and]

theorem misnamesFile_construction (stage : Stage) :
    misnamesFile (stage.constructionRow ++ [Command.new.name]) = false := by
  refine misnamesFile_of_notMem fun among => ?_
  have unbracketed : '[' ∉ Parameter.filename.name.toList := by decide
  have new : Parameter.filename.name ≠ Command.new.name := by decide
  rcases List.mem_append.1 among with front | last
  · unfold Stage.constructionRow at front
    split at front
    · simp only [List.mem_cons, List.not_mem_nil, or_false] at front
      rcases front with name | token
      · exact absurd name (by decide)
      · rw [token] at unbracketed
        exact unbracketed (by simp [presetToken])
    · obtain ⟨corner, -, inside⟩ := List.mem_flatMap.1 front
      simp only [List.mem_cons, List.not_mem_nil, or_false] at inside
      rcases inside with name | token
      · exact absurd name (by decide)
      · rw [token] at unbracketed
        exact unbracketed (by simp [cornerToken])
  · exact new (List.mem_singleton.1 last)

section Sheets

variable {run : Command → List String → Action Unit} {scope : Scope} {session after : Session}

theorem dispatch_onlySheets {front rest : List String} (sheets : OnlySheets front)
    (ordinary : Ordinary session) (bare : session.draft.lead = [])
    (printable : session.stage.Printable)
    (corners : ∀ corner ∈ stagedCorners (front ++ rest), corner.Printable)
    (done : (dispatch run scope (front ++ rest)).on session = (.ok (), after)) :
    ∃ staged, Ordinary staged ∧ staged.draft.lead = [] ∧ staged.stage.Printable ∧
      staged.engine = session.engine ∧ (dispatch run scope rest).on staged = (.ok (), after) := by
  induction front generalizing session with
  | nil => exact ⟨session, ordinary, bare, printable, rfl, done⟩
  | cons word front induction =>
      obtain ⟨here, later⟩ := List.forall_mem_cons.1 sheets
      obtain ⟨_, reached, obeyed, others⟩ := ok_of_bind done
      have behind : ∀ corner ∈ stagedCorners (front ++ rest), corner.Printable :=
        fun corner among => corners corner (List.mem_append_right _ among)
      rcases obeyToken_cases obeyed with ⟨rfl, -⟩ | ⟨parameter, setting, found, reads, ends⟩ |
        ⟨command, _, found, -⟩
      · exact induction later ordinary bare printable behind others
      · have unseen : parameter.isAppearance = false := by
          rcases here _ found with same | same <;> cases same <;> rfl
        obtain ⟨beside, stage⟩ := beside_setting ends
        have lead : reached.draft.lead = [] := by
          rw [ends, unseen, Bool.and_false, if_neg Bool.false_ne_true, ← bare]
          cases setting <;> rfl
        have printed : reached.stage.Printable := by
          rw [stage]
          intro corner staged
          rcases Setting.corners_onStage staged with before | own
          · exact printable corner before
          · exact corners corner (mem_stagedCorners found reads own)
        obtain ⟨staged, ordinary', bare', printable', engine, runs⟩ :=
          induction later (ordinary.beside beside) lead printed behind others
        exact ⟨staged, ordinary', bare', printable', engine.trans beside.engine, runs⟩
      · rcases here _ found with same | same <;> cases same

end Sheets

/-- What has brought the one session to the other has left the ledger and no target, and has not touched
the history. -/
structure Brought (before : Session) (ledger : Ledger) (after : Session) : Prop where
  ordinary : Ordinary after
  engine : after.engine = before.engine
  history : after.history = before.history
  free : after.stage.target = none
  model : after.model = some ledger

/-- Obeying the entry makes the sheet wherever nothing is staged. -/
def Makes (entry : String) (ledger : Ledger) : Prop :=
  ∀ session, Blank session → ∀ nested takeBack, ∃ after,
    (dispatch (obey nested ⟨false, false⟩ takeBack) ⟨false, false⟩ (tokens entry)).on session =
      (.ok (), after) ∧ Brought session ledger after

theorem makes_of_sheet {staged : Session} (ordinary : Ordinary staged)
    (printable : staged.stage.Printable) (paper : staged.stage.hasPaper = true) {ledger : Ledger}
    (sheet : staged.stage.sheet = .ok ledger) :
    Makes (rebasedEntry [] staged.stage.construction []) ledger := by
  have reads : tokens (rebasedEntry [] staged.stage.construction []) =
      staged.stage.constructionRow ++ [Command.new.name] := by
    have entry : tokens (rebasedEntry [] staged.stage.construction []) =
        staged.stage.constructionRow ++ [Command.new.name] ++ [] :=
      tokens_rebasedEntry [] staged.stage.constructs.toStandalone .nil
    rwa [List.append_nil] at entry
  intro bare blank nested takeBack
  rw [reads]
  obtain ⟨again, made, beside, beside', alike, runs⟩ :=
    on_dispatch_rebased ordinary paper sheet printable [] [] blank
      (misnamesFile_construction staged.stage) nested ⟨true, true⟩ ⟨false, false⟩ takeBack
  refine ⟨made, runs, alike.ordinary', beside'.engine.trans beside.engine,
    beside'.history.trans beside.history, ?_, ?_⟩
  · rw [← alike.stage]
    rfl
  · rw [beside'.model, making_model]

/-- A session whose only entry has made the sheet it has. -/
structure Opened (session : Session) (entry : String) (ledger : Ledger) : Prop where
  ordinary : Ordinary session
  free : session.stage.target = none
  model : session.model = some ledger
  history : session.history = [entry]
  makes : Makes entry ledger
  bare : ledger.journal = []

theorem opened_of_success {session : Session} {statement : String} {front : List String}
    (blank : Blank session) (sheets : OnlySheets front)
    (reads : tokens statement = front ++ [Command.new.name])
    (corners : ∀ corner ∈ stagedCorners (tokens statement), corner.Printable)
    (done : session.failure statement = none) :
    ∃ entry ledger, Opened (session.executed statement) entry ledger := by
  obtain ⟨after, runs, settled⟩ := running_of_success done
  rw [running, runRecorded, reads] at runs
  rw [reads] at corners
  have printable : (session.enter statement).stage.Printable := by
    show session.stage.Printable
    rw [blank.stage]
    exact fun corner among => absurd among List.not_mem_nil
  obtain ⟨staged, ordinary, lead, printable, -, makes⟩ :=
    dispatch_onlySheets sheets (blank.ordinary.enter statement) rfl printable corners runs
  obtain ⟨_, reached, obeyed, others⟩ := ok_of_bind makes
  cases others
  obtain ⟨made, obeys, ends⟩ := obeyToken_command obeyed
  obtain ⟨paper, ledger, sheet, rfl⟩ := making_of_ok ordinary obeys
  obtain ⟨beside, stage, -⟩ := beside_applied ends
  rw [settled]
  exact
    ⟨rebasedEntry [] staged.stage.construction [], ledger,
      { ordinary := ((ordinary.making ⟨true, true⟩ [] ledger).beside beside).settle
        free := by
          rw [settle_stage, stage]
          rfl
        model := by
          show after.model = some ledger
          rw [beside.model, making_model]
        history := by
          rw [settle_history, beside.history, making, rebasing, if_pos rfl, ← lead]
          rfl
        makes := makes_of_sheet ordinary printable paper sheet
        bare := journal_of_sheet sheet }⟩

end Session

end PaperFolding
