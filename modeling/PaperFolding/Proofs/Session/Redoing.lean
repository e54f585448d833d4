import PaperFolding.Proofs.Session.Reverting

/-!
Failed statements and the records that were undone. Rolling back undoes what the statement has recorded,
so its records are then the ones to be redone, and those from before are forgotten.
-/

namespace PaperFolding

open Script

namespace Ledger

theorem windTo_behind (ledger : Ledger) (records : List Record) :
    (⟨ledger.outline, ledger.journal ++ records, []⟩ : Ledger).windTo ledger.depth =
      ⟨ledger.outline, ledger.journal, records⟩ := by
  simp only [windTo, line, depth, List.append_nil, List.take_left, List.drop_left]

end Ledger

namespace Course

/-- To the same sheet, or to one with more records and nothing to be redone. -/
def recording {engine : Engine} (applies : engine.apply = Ledger.apply) : Course engine where
  leads ledger folded := folded = ledger ∨
    ∃ record records, folded = ⟨ledger.outline, ledger.journal ++ record :: records, []⟩
  refl _ := .inl rfl
  trans := by
    rintro first second third (rfl | ⟨record, records, rfl⟩) later
    · exact later
    · obtain rfl | ⟨record', records', rfl⟩ := later
      · exact .inr ⟨record, records, rfl⟩
      · exact .inr ⟨record, records ++ record' :: records', by simp⟩
  apply {ledger folded record} applied := by
    rw [applies] at applied
    exact .inr ⟨record, [], Ledger.eq_of_apply applied⟩

theorem prefix_of_recording {engine : Engine} {applies : engine.apply = Ledger.apply}
    {ledger folded : Ledger} (leads : (recording applies).leads ledger folded) :
    folded.outline = ledger.outline ∧ ledger.journal <+: folded.journal := by
  rcases leads with rfl | ⟨record, records, rfl⟩
  · exact ⟨rfl, List.prefix_rfl⟩
  · exact ⟨rfl, List.prefix_append _ _⟩

end Course

namespace Session

variable {session : Session} {statement redoing : String} {ledger kept : Ledger} {fault : Fault}

/-! ## Redoing -/

/-- How a statement that only redoes ends with such a paper, and the records in effect after it. -/
def redoOutcome : Option Ledger → Option Fault × Option (List Record)
  | none => (some (.missing (.paper Command.redo.name)), none)
  | some ledger =>
      match ledger.undone with
      | [] => (some (.sheet .nothingToRedo), some ledger.journal)
      | next :: _ => (none, some (ledger.journal ++ [next]))

theorem running_redo_of_none (unwatched : session.Unwatched) (none : session.model = none)
    (reads : tokens statement = [Command.redo.name]) :
    session.running statement =
      (.error (.missing (.paper Command.redo.name)), session.enter statement) := by
  have unstopped : (session.enter statement).world.watch.stopped = false := unwatched.unstopped
  have checked := on_checkpoint_of_unstopped unstopped ⟨true, true⟩
  have refused : objection? .redo (session.enter statement) =
      some (.missing (.paper Command.redo.name)) := by
    have bare : (session.enter statement).model = .none := none
    rw [objection?, if_neg (show ¬ (session.enter statement).access < Command.redo.access from
      Nat.not_lt_zero _), bare]
    rfl
  rw [running_of_word reads, obeyToken_command_eq, on_bind_of_ok checked, obeyCommand,
    Action.on_bind, on_permit, refused]

theorem running_redo (unwatched : session.Unwatched) (held : session.model = some ledger)
    (reads : tokens statement = [Command.redo.name]) :
    session.running statement =
      match session.engine.redo ledger with
      | .error refusal => (.error (.sheet refusal), (session.enter statement).noting .redo)
      | .ok next =>
          (.ok (), { ((session.enter statement).noting .redo).holding next with
            stage := .empty, draft := ⟨true, true, []⟩ }) := by
  have unstopped : (session.enter statement).world.watch.stopped = false := unwatched.unstopped
  have checked := on_checkpoint_of_unstopped unstopped ⟨true, true⟩
  have present : (session.enter statement).model = some ledger := held
  have granted : (permit .redo).on (session.enter statement) = (.ok (), session.enter statement) :=
    on_permit_of_user rfl (by rw [present, Option.isNone_some, Bool.and_false])
  rw [running_of_word reads, obeyToken_command_eq, on_bind_of_ok checked, obeyCommand,
    on_bind_of_ok granted, Session.obey, Session.redo, bind_assoc, Action.on_bind, redoSheet,
    on_fold, present]
  have same : (session.enter statement).engine = session.engine := rfl
  cases again : session.engine.redo ledger with
  | error refusal => simp only [same, again]
  | ok next =>
    simp only [same, again]
    rfl

theorem redo_outcome (plain : session.engine = .plain) (unwatched : session.Unwatched)
    (reads : tokens statement = [Command.redo.name]) :
    (session.failure statement, (session.executed statement).model.map Ledger.journal) =
      redoOutcome session.model := by
  cases held : session.model with
  | none =>
      have failed : session.failure statement = some (.missing (.paper Command.redo.name)) := by
        rw [failure_eq, running_redo_of_none unwatched held reads]
        rfl
      rw [failed, executed_failure_model_none failed held]
      rfl
  | some ledger =>
      have runs := running_redo unwatched held reads
      rw [plain] at runs
      cases undone : ledger.undone with
      | nil =>
          have again : Engine.plain.redo ledger = .error .nothingToRedo := by
            show ledger.redo = _
            rw [Ledger.redo, undone]
          rw [again] at runs
          have failed : session.failure statement = some (.sheet .nothingToRedo) := by
            rw [failure_eq, runs]
            rfl
          have same : (session.executed statement).model = some ledger := by
            have keeps : Keeps .onSheet (session.enter statement) (session.running statement).2 :=
              keeps_running fun _ _ => Course.onSheet_reversible.admits _
            have back := model_of_keeps keeps plain held
            have kept : (session.running statement).2.keptPaper = some ledger := by
              rw [runs]
              exact held
            rw [kept, Option.map_some, ledger.windTo_depth] at back
            rw [executed_rollback failed, settle_model, back]
          simp only [failed, same, redoOutcome, undone, Option.map_some]
      | cons next others =>
          have again : Engine.plain.redo ledger =
              .ok ⟨ledger.outline, ledger.journal ++ [next], others⟩ := by
            show ledger.redo = _
            rw [Ledger.redo, undone]
          rw [again] at runs
          obtain ⟨done, settled⟩ := success_of_running runs
          rw [done, settled]
          simp only [redoOutcome, undone]
          rfl

/-! ## Redoing behind a failure -/

theorem redoOutcome_behind_iff (ledger : Ledger) (record : Record) (records : List Record) :
    redoOutcome (some ⟨ledger.outline, ledger.journal, record :: records⟩) =
        redoOutcome (some ledger) ↔
      ledger.undone.head? = some record := by
  cases undone : ledger.undone with
  | nil => simp [redoOutcome, undone]
  | cons next others => simp [redoOutcome, undone, eq_comm]

theorem executed_failure_recording (plain : session.engine = .plain)
    (failed : session.failure statement = some fault)
    (forward : ∀ text ∈ statement :: session.scriptsLoaded statement,
      Command.undo.name ∉ tokens text ∧ Command.redo.name ∉ tokens text)
    (held : session.model = some ledger) :
    ∃ kept, (session.running statement).2.keptPaper = some kept ∧
      (session.executed statement).model = some (kept.windTo ledger.depth) ∧
      (kept = ledger ∨ ∃ record records,
        kept = ⟨ledger.outline, ledger.journal ++ record :: records, []⟩) := by
  have keeps : Keeps (.recording rfl : Course .plain) (session.enter statement)
      (session.running statement).2 :=
    keeps_running fun text among =>
      Course.admits_of_forward _ (forward text among).1 (forward text among).2
  have reached := keptPaper_of_keeps keeps plain held
  obtain ⟨kept, found, leads⟩ := reached
  refine ⟨kept, found, ?_, leads⟩
  rw [executed_rollback failed, settle_model, model_of_keeps keeps plain held, found,
    Option.map_some]

/-- Behind a failed statement `redo` does what it does without it if and only if the statement has
recorded nothing on the paper it began with, or first of all what was to be redone. -/
theorem redo_after_failure_iff (plain : session.engine = .plain) (unwatched : session.Unwatched)
    (failed : session.failure statement = some fault)
    (forward : ∀ text ∈ statement :: session.scriptsLoaded statement,
      Command.undo.name ∉ tokens text ∧ Command.redo.name ∉ tokens text)
    (reads : tokens redoing = [Command.redo.name]) :
    ((session.executed statement).failure redoing = session.failure redoing ∧
        ((session.executed statement).executed redoing).model.map Ledger.journal =
          (session.executed redoing).model.map Ledger.journal) ↔
      ∀ ledger ∈ session.model, ∀ kept ∈ (session.running statement).2.keptPaper,
        kept = ledger ∨ kept.journal[ledger.depth]? = ledger.undone.head? := by
  have plain' : (session.executed statement).engine = .plain :=
    (executed_engine session statement).trans plain
  rw [← Prod.mk.injEq, redo_outcome plain' (unwatched.executed statement) reads,
    redo_outcome plain unwatched reads]
  cases held : session.model with
  | none => simp [executed_failure_model_none failed held]
  | some ledger =>
      obtain ⟨kept, found, back, leads⟩ := executed_failure_recording plain failed forward held
      rw [back, found]
      obtain rfl | ⟨record, records, rfl⟩ := leads
      · simp [Ledger.windTo_depth]
      · simp only [ledger.windTo_behind, Option.mem_some, forall_eq']
        have next : (ledger.journal ++ record :: records)[ledger.depth]? = some record := by
          simp [Ledger.depth]
        have longer : (⟨ledger.outline, ledger.journal ++ record :: records, []⟩ : Ledger) ≠
            ledger := by
          intro same
          have depth := congrArg Ledger.depth same
          simp [Ledger.depth] at depth
        rw [redoOutcome_behind_iff, or_iff_right longer, next, eq_comm]

/-- The fold that was undone is recorded once more before the failure, and is to be redone either way. -/
theorem redo_after_failure_iff_repeated :
    (folded.executed "undo").failure "plane [1 0 0] [1 0 0] reflect cut" =
        some (.missing (.plane "cut")) ∧
      (folded.executed "undo").failure "redo" = none ∧
      ((folded.executed "undo").executed "plane [1 0 0] [1 0 0] reflect cut").failure "redo" =
        (folded.executed "undo").failure "redo" := by
  have plain : (folded.executed "undo").engine = .plain :=
    (executed_engine folded "undo").trans folded_engine
  have unwatched : (folded.executed "undo").Unwatched :=
    (((unwatched_ofSettings .standard .plain (.empty []) .absent).executed _).executed _).executed _
  have failed : (folded.executed "undo").failure "plane [1 0 0] [1 0 0] reflect cut" =
      some (.missing (.plane "cut")) := by decide +kernel
  have done : (folded.executed "undo").failure "redo" = none := by decide +kernel
  have reads : tokens "redo" = [Command.redo.name] := by decide +kernel
  have same := (redo_after_failure_iff plain unwatched failed (by decide +kernel) reads).2
    (by decide +kernel)
  exact ⟨failed, done, same.1⟩

/-- There is nothing to be redone, but behind the failure its fold is. -/
theorem failed_fold_redone :
    square.failure "plane [1 0 0] [1 0 0] reflect cut" = some (.missing (.plane "cut")) ∧
      square.failure "redo" = some (.sheet .nothingToRedo) ∧
      (square.executed "plane [1 0 0] [1 0 0] reflect cut").failure "redo" = none ∧
      ((square.executed "plane [1 0 0] [1 0 0] reflect cut").executed
        "redo").model.map Ledger.depth = some 1 := by
  decide +kernel

end Session

end PaperFolding
