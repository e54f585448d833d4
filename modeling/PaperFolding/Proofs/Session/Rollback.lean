import PaperFolding.Proofs.Ledger.Line
import PaperFolding.Proofs.Session.Execution
import PaperFolding.Proofs.Session.Keeping

/-!
How a failed statement is rolled back: everything but the paper in any case, the paper as far as the
records it began with are still to be reached.
-/

namespace PaperFolding

namespace Course

def lengthening : Course .plain where
  leads ledger folded := folded.outline = ledger.outline ∧ ledger.journal <+: folded.journal
  refl ledger := ⟨rfl, List.prefix_rfl⟩
  trans earlier later := ⟨later.1.trans earlier.1, earlier.2.trans later.2⟩
  apply {ledger folded record} applied := by
    have applied : ledger.apply record = .ok folded := applied
    refine ⟨Ledger.apply_outline applied, ?_⟩
    rw [(Ledger.apply_journal applied).1]
    exact List.prefix_append _ _

def onSheet : Course .plain where
  leads ledger folded := folded.outline = ledger.outline
  refl _ := rfl
  trans earlier later := later.trans earlier
  apply applied := Ledger.apply_outline applied

theorem onSheet_reversible : onSheet.Reversible where
  undo taken := Ledger.undo_outline taken
  redo done := Ledger.redo_outline done

theorem admits_of_forward {engine : Engine} (course : Course engine) {row : List String}
    (undoes : Command.undo.name ∉ row) (redoes : Command.redo.name ∉ row) :
    course.conduct.Admits row := by
  intro word among command found back
  obtain rfl : command.name = word := Keyword.name_of_ofWord? found
  rcases back with rfl | rfl
  · exact absurd among undoes
  · exact absurd among redoes

end Course

namespace Session

variable {engine : Engine} {course : Course engine} {session : Session} {statement : String}

theorem keeps_running
    (admits : ∀ text ∈ statement :: session.scriptsLoaded statement,
      course.conduct.Admits (Script.tokens text)) :
    Keeps course (session.enter statement) (session.running statement).2 := by
  rw [running]
  exact leads_runRecorded trivial session statement admits

theorem fold_history (word : String) (call : Call)
    (step : Engine → Ledger → Except Refusal Ledger) (session : Session) :
    ((fold word call step).on session).2.history = session.history := by
  rw [on_fold]
  cases session.model with
  | none => rfl
  | some ledger => cases folds : step session.engine ledger <;> simp only [folds] <;> rfl

theorem repeating_history {step : Action Unit}
    (same : ∀ session, (step.on session).2.history = session.history) (count : Nat)
    (session : Session) : (repeating step count session).history = session.history := by
  induction count generalizing session with
  | zero => rfl
  | succ count induction =>
      have front := same session
      rw [repeating]
      revert front
      rcases step.on session with ⟨_ | _, after⟩
      · exact id
      · exact fun front => (induction after).trans front

theorem rewind_history (target : Nat) (session : Session) :
    (session.rewind target).history = session.history := by
  unfold rewind
  split
  · rfl
  · split
    · exact repeating_history (fold_history _ _ _) _ session
    · exact repeating_history (fold_history _ _ _) _ session

theorem rewinding_history (depth : Option Nat) (session : Session) :
    (session.rewinding depth).history = session.history := by
  cases depth with
  | none => rfl
  | some depth => exact session.rewind_history depth

/-! ## Rolling back -/

theorem recover_of_keeps {ended : Session} (keeps : Keeps course (session.enter statement) ended) :
    ended.recover = ended.rollback session.begin := by
  have saved := keeps.saved
  cases kept : ended.transaction with
  | none =>
      rw [kept] at saved
      cases saved
  | some transaction =>
      rw [kept] at saved
      have began : transaction.saved = session.begin := Option.some.inj saved
      rw [recover, kept, ← began]
      rfl

theorem rewinding_engine (depth : Option Nat) (session : Session) :
    (session.rewinding depth).engine = session.engine := by
  cases depth with
  | none => rfl
  | some depth =>
      have reversible := Course.anywhere_reversible session.engine
      have keeps : (Course.anywhere session.engine).conduct.leads session (session.rewind depth) :=
        leads_rewind (fun _ => reversible) (fun _ => reversible) depth session
      exact keeps.sameEngine

theorem rollback_engine (session : Session) (transaction : Transaction) :
    (session.rollback transaction).engine = session.engine :=
  rewinding_engine _ _

theorem executed_engine (session : Session) (statement : String) :
    (session.executed statement).engine = session.engine := by
  have keeps : Keeps (.anywhere session.engine) (session.enter statement)
      (session.running statement).2 :=
    keeps_running fun _ _ => (Course.anywhere_reversible session.engine).admits _
  cases ended : session.failure statement with
  | none =>
      rw [executed_of_success ended, settle_engine]
      exact keeps.sameEngine
  | some fault =>
      rw [executed_of_failure ended, recover_of_keeps keeps, settle_engine, rollback_engine]
      exact keeps.sameEngine

theorem history_of_keeps {ended : Session} (keeps : Keeps course (session.enter statement) ended) :
    (ended.rollback session.begin).history = session.history := by
  have kept : ended.keptHistory = session.history ++ [statement] := keeps.history rfl
  show ((ended.returning session.history.length).rewinding session.depth).history = session.history
  rw [rewinding_history]
  show ended.keptHistory.take session.history.length = session.history
  rw [kept, List.take_left]

theorem model_of_keeps_none {ended : Session}
    (keeps : Keeps course (session.enter statement) ended) (same : session.engine = engine)
    (none : session.model = none) : (ended.rollback session.begin).model = .none := by
  have paper : Option.Rel course.leads session.model ended.keptPaper := keeps.paper same rfl
  rw [none] at paper
  show ((ended.returning session.history.length).rewinding session.depth).model = .none
  simp only [depth, none, Option.map_none, rewinding]
  show ended.keptPaper = .none
  cases found : ended.keptPaper with
  | none => rfl
  | some kept =>
      rw [found] at paper
      cases paper

theorem keptPaper_of_keeps {ended : Session}
    (keeps : Keeps course (session.enter statement) ended) (same : session.engine = engine)
    {ledger : Ledger} (held : session.model = some ledger) :
    ∃ kept, ended.keptPaper = some kept ∧ course.leads ledger kept := by
  have paper : Option.Rel course.leads session.model ended.keptPaper := keeps.paper same rfl
  rw [held] at paper
  cases found : ended.keptPaper with
  | none =>
      rw [found] at paper
      cases paper
  | some kept =>
      rw [found] at paper
      cases paper with
      | some leads => exact ⟨kept, rfl, leads⟩

theorem model_of_keeps {course : Course .plain} {ended : Session}
    (keeps : Keeps course (session.enter statement) ended) (plain : session.engine = .plain)
    {ledger : Ledger} (held : session.model = some ledger) :
    (ended.rollback session.begin).model =
      ended.keptPaper.map fun kept => kept.windTo ledger.depth := by
  have same : ended.engine = .plain := keeps.sameEngine.trans plain
  have depth : session.depth = some ledger.depth := by
    simp only [Session.depth, held, plain, Engine.plain, Option.map_some]
  show ((ended.returning session.history.length).rewinding session.depth).model = _
  rw [depth]
  exact rewind_plain ledger.depth (ended.returning session.history.length) same

/-- The records from before are back if and only if undoing and redoing still reaches them. -/
theorem content_of_keeps {ended : Session}
    (keeps : Keeps .onSheet (session.enter statement) ended) (plain : session.engine = .plain) :
    (ended.rollback session.begin).model.map Ledger.content = session.model.map Ledger.content ↔
      ∀ ledger ∈ session.model, ∃ kept ∈ ended.keptPaper, ledger.journal <+: kept.line := by
  cases held : session.model with
  | none =>
      rw [model_of_keeps_none keeps plain held]
      simp
  | some ledger =>
      obtain ⟨kept, found, outline⟩ := keptPaper_of_keeps keeps plain held
      have outline : kept.outline = ledger.outline := outline
      rw [model_of_keeps keeps plain held, found]
      simp only [Option.map_some, Option.some.injEq, Ledger.content, Ledger.windTo, outline,
        Prod.mk.injEq, true_and, Option.mem_def, forall_eq', exists_eq_left', Ledger.depth]
      rw [List.prefix_iff_eq_take, eq_comm]

theorem journal_of_lengthening {ended : Session}
    (keeps : Keeps .lengthening (session.enter statement) ended) (plain : session.engine = .plain)
    {ledger : Ledger} (held : ledger ∈ session.model) :
    ∃ kept ∈ ended.keptPaper, ledger.journal <+: kept.line := by
  obtain ⟨kept, found, longer⟩ := keptPaper_of_keeps keeps plain (Option.mem_def.1 held)
  exact ⟨kept, found, longer.2.trans (List.prefix_append _ _)⟩

/-! ## Failed statements -/

theorem keeps_anyhow (session : Session) (statement : String) :
    Keeps (.anywhere session.engine) (session.enter statement) (session.running statement).2 :=
  keeps_running fun _ _ => (Course.anywhere_reversible session.engine).admits _

theorem executed_rollback {fault : Fault} (failed : session.failure statement = some fault) :
    session.executed statement =
      ((session.running statement).2.rollback session.begin).settle := by
  rw [executed_of_failure failed, recover_of_keeps (session.keeps_anyhow statement)]

theorem executed_failure_history {fault : Fault} (failed : session.failure statement = some fault) :
    (session.executed statement).history = session.history := by
  rw [executed_rollback failed]
  exact history_of_keeps (session.keeps_anyhow statement)

theorem executed_failure_stage {fault : Fault} (failed : session.failure statement = some fault) :
    (session.executed statement).stage = session.stage := by
  rw [executed_rollback failed]
  rfl

theorem executed_failure_model_none {fault : Fault}
    (failed : session.failure statement = some fault) (none : session.model = none) :
    (session.executed statement).model = .none := by
  rw [executed_rollback failed]
  exact model_of_keeps_none (session.keeps_anyhow statement) rfl none

theorem executed_failure_content {fault : Fault} (plain : session.engine = .plain)
    (failed : session.failure statement = some fault)
    (forward : ∀ text ∈ statement :: session.scriptsLoaded statement,
      Command.undo.name ∉ Script.tokens text ∧ Command.redo.name ∉ Script.tokens text) :
    (session.executed statement).model.map Ledger.content = session.model.map Ledger.content := by
  -- Two courses are watched: one tells where the records can be reached, the other that they can.
  have onSheet : Keeps .onSheet (session.enter statement) (session.running statement).2 :=
    keeps_running fun _ _ => Course.onSheet_reversible.admits _
  have lengthening : Keeps .lengthening (session.enter statement) (session.running statement).2 :=
    keeps_running fun text among =>
      Course.lengthening.admits_of_forward (forward text among).1 (forward text among).2
  rw [executed_rollback failed]
  exact (content_of_keeps onSheet plain).2 fun ledger held =>
    journal_of_lengthening lengthening plain held

/-- A failed statement leaves history, privileges, stage and appearance as they were, and the paper as
well unless something in it undoes or redoes. -/
theorem executed_failure_unchanged {fault : Fault}
    (failed : session.failure statement = some fault) :
    (session.executed statement).history = session.history ∧
      (session.executed statement).access = session.access ∧
      (session.executed statement).stage = session.stage ∧
      (session.executed statement).color = session.color ∧
      (session.executed statement).texture = session.texture ∧
      (session.executed statement).filename = session.filename ∧
      (session.executed statement).locale = session.locale ∧
      (session.executed statement).camera = session.camera ∧
      (session.engine = .plain →
        (∀ text ∈ statement :: session.scriptsLoaded statement,
          Command.undo.name ∉ Script.tokens text ∧ Command.redo.name ∉ Script.tokens text) →
        (session.executed statement).model.map Ledger.content =
          session.model.map Ledger.content) := by
  have history := executed_failure_history failed
  have content (plain : session.engine = .plain) := executed_failure_content plain failed
  have rolled := executed_rollback failed
  refine ⟨history, ?_, executed_failure_stage failed, ?_, ?_, ?_, ?_, ?_, content⟩
  all_goals
    rw [rolled]
    rfl

def fresh : Session := ofSettings .standard .plain (.quiet (.empty []) .absent)

def folded : Session := (fresh.executed "paper [square] new").executed "plane [1 0 0] [1 0 0] reflect"

theorem folded_engine : folded.engine = .plain := by
  rw [folded, executed_engine, executed_engine]
  rfl

theorem executed_failure_unchanged_new :
    folded.failure "color [1] paper [a4] new rotate" = some (.missing (.plane "rotate")) ∧
      (folded.executed "color [1] paper [a4] new rotate").history = folded.history ∧
      (folded.executed "color [1] paper [a4] new rotate").color = folded.color ∧
      (folded.executed "color [1] paper [a4] new rotate").model.map Ledger.content =
        folded.model.map Ledger.content := by
  have failed : folded.failure "color [1] paper [a4] new rotate" =
      some (.missing (.plane "rotate")) := by
    decide +kernel
  obtain ⟨history, -, -, color, -, -, -, -, content⟩ := executed_failure_unchanged failed
  exact ⟨failed, history, color, content folded_engine (by decide +kernel)⟩

/-- A statement that undoes and fails gives the records from before back exactly if the sheet it leaves
can still reach all of them; an operation done after undoing forgets those that were taken back. -/
theorem executed_failure_content_iff {fault : Fault} (plain : session.engine = .plain)
    (failed : session.failure statement = some fault) :
    (session.executed statement).model.map Ledger.content = session.model.map Ledger.content ↔
      ∀ ledger ∈ session.model, ∃ kept ∈ (session.running statement).2.keptPaper,
        ledger.journal <+: kept.line := by
  have onSheet : Keeps .onSheet (session.enter statement) (session.running statement).2 :=
    keeps_running fun _ _ => Course.onSheet_reversible.admits _
  rw [executed_of_failure failed, recover_of_keeps onSheet]
  exact content_of_keeps onSheet plain

theorem executed_failure_content_iff_undo :
    folded.failure "undo cut" = some (.missing (.plane "cut")) ∧
      (folded.executed "undo cut").model.map Ledger.content = folded.model.map Ledger.content := by
  have failed : folded.failure "undo cut" = some (.missing (.plane "cut")) := by decide +kernel
  exact ⟨failed, (executed_failure_content_iff folded_engine failed).2 (by decide +kernel)⟩

/-- The record that was undone gives way to the new one, which the rollback leaves in its place. -/
theorem executed_failure_loses_record :
    folded.failure "undo plane [2 0 0] [1 0 0] reflect cut" = some (.missing (.plane "cut")) ∧
      (folded.executed "undo plane [2 0 0] [1 0 0] reflect cut").model.map Ledger.content ≠
        folded.model.map Ledger.content := by
  constructor <;> decide +kernel

end Session

end PaperFolding
