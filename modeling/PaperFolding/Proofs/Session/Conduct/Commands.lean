import PaperFolding.Proofs.Session.Conduct.Basic

/-!
Every command that runs no script follows any conduct that permits it.
-/

namespace PaperFolding.Session

variable {conduct : Conduct}

theorem follows_fold {word : String} {call : Call}
    {step : Engine → Ledger → Except Refusal Ledger}
    (leads : ∀ {session ledger folded}, session.model = some ledger →
      step session.engine ledger = .ok folded → conduct.leads session (session.holding folded)) :
    Follows conduct (fold word call step) := by
  intro session
  rw [on_fold]
  cases held : session.model with
  | none => exact conduct.refl session
  | some ledger =>
      cases folds : step session.engine ledger with
      | error refusal =>
          simp only [folds]
          exact conduct.noting call session
      | ok folded =>
          simp only [folds]
          exact conduct.trans (conduct.noting call session) (leads held folds)

theorem follows_operate (word : String) (record : Record) : Follows conduct (operate word record) :=
  follows_fold conduct.applying

theorem follows_undoSheet (word : String) (permitted : conduct.permits .undo) :
    Follows conduct (undoSheet word) := follows_fold (conduct.undoing permitted)

theorem follows_redoSheet (word : String) (permitted : conduct.permits .redo) :
    Follows conduct (redoSheet word) := follows_fold (conduct.redoing permitted)

theorem leads_repeating {step : Action Unit} (follows : Follows conduct step) (count : Nat)
    (session : Session) : conduct.leads session (repeating step count session) := by
  induction count generalizing session with
  | zero => exact conduct.refl session
  | succ count induction =>
      have front := follows session
      rw [repeating]
      revert front
      rcases step.on session with ⟨_ | _, after⟩
      · exact id
      · exact fun front => conduct.trans front (induction after)

theorem leads_rewind (undoes : conduct.permits .undo) (redoes : conduct.permits .redo)
    (target : Nat) (session : Session) : conduct.leads session (session.rewind target) := by
  unfold rewind
  split
  · exact conduct.refl session
  · split
    · exact leads_repeating (follows_undoSheet _ undoes) _ session
    · exact leads_repeating (follows_redoSheet _ redoes) _ session

theorem follows_regionAt (word : String) (point : Planar) : Follows conduct (regionAt word point) := by
  intro session
  rw [on_regionAt]
  split
  · exact conduct.refl session
  · exact conduct.noting _ session

theorem follows_restriction (word : String) (plane : Plane) :
    Follows conduct (restriction word plane) := by
  refine .get_bind fun session => ?_
  split
  · exact .pure none
  · rename_i target _
    refine .bind (follows_operate word _) fun _ => ?_
    intro session
    rw [Action.on_map]
    exact follows_regionAt word target session

theorem follows_foldAlong (word : String) (plane : Plane) (operation : Operation) :
    Follows conduct (foldAlong word plane operation) :=
  .bind (follows_restriction word plane) fun _ =>
    .bind (follows_operate word _) fun _ => .clearStage

theorem follows_rotate : Follows conduct rotate :=
  .get_bind fun _ => .bind (.lift _) fun _ => .bind (.lift _) fun _ => follows_foldAlong _ _ _

theorem follows_reflect : Follows conduct reflect :=
  .get_bind fun _ => .bind (.lift _) fun _ => follows_foldAlong _ _ _

theorem follows_cut : Follows conduct cut :=
  .get_bind fun _ => .bind (.lift _) fun _ => follows_foldAlong _ _ _

theorem follows_redo (permitted : conduct.permits .redo) : Follows conduct redo :=
  .bind (follows_redoSheet _ permitted) fun _ => .clearStage

theorem follows_undoOr (permitted : conduct.permits .undo) {otherwise : Action Unit}
    (follows : Follows conduct otherwise) : Follows conduct (undoOr otherwise) := by
  refine .get_bind fun session => .bind ?_ fun _ => .clearStage
  split
  · exact follows_undoSheet _ permitted
  · exact follows

/-! ## Other commands -/

theorem follows_stagedSheet (stage : Stage) : Follows conduct (stagedSheet stage) := by
  unfold stagedSheet
  split
  · exact .bind (.note _) fun _ => .get_bind fun _ => .pure _
  · exact .bind (.note _) fun _ => .get_bind fun _ => .bind (.lift _) fun _ => .pure _

theorem follows_makePaper {scope : Scope} (records : scope.recording = true → conduct.recorded)
    (rest : List String) : Follows conduct (makePaper scope rest) :=
  .get_bind fun session => .bind (.refuseIf _ _) fun _ =>
    .bind (follows_stagedSheet session.stage) fun (_, _) =>
      .bind (.replacePaper _) fun _ => .bind (.rebase records _ _) fun _ => .clearStage

theorem follows_reopen {scope : Scope} (records : scope.recording = true → conduct.recorded)
    (rest : List String) : Follows conduct (reopen scope rest) := by
  refine .bind (.requiredFilename _) fun path => .bind (.note _) fun _ => .get_bind fun _ =>
    .get_bind fun _ => .bind (.lift _) fun archive => .bind ?_ fun _ =>
      .bind (.replacePaper _) fun _ => .rebase records _ _
  exact .modify fun _ => conduct.beside ⟨rfl, rfl, rfl, rfl, rfl, rfl⟩

theorem follows_loadTexture : Follows conduct loadTexture :=
  .bind (.requiredFilename _) fun _ => .get_bind fun _ => .bind (.lift _) fun _ =>
    .modify fun _ => conduct.beside ⟨rfl, rfl, rfl, rfl, rfl, rfl⟩

theorem follows_unloadTexture : Follows conduct unloadTexture :=
  .modify fun _ => conduct.beside ⟨rfl, rfl, rfl, rfl, rfl, rfl⟩

theorem follows_writeDocument (encoding : Encoding) : Follows conduct (writeDocument encoding) :=
  .bind (.requiredFilename _) fun _ => .get_bind fun _ => .bind (.refuseIf _ _) fun _ =>
    .bind (.refuseIf _ _) fun _ => .bind (.paper _) fun _ => .bind (.note _) fun _ =>
      .bind (.withFiles _) fun _ => .clearStage

theorem follows_diagnose : Follows conduct diagnose :=
  .bind (.paper _) fun _ => .modify fun _ => conduct.beside ⟨rfl, rfl, rfl, rfl, rfl, rfl⟩

theorem follows_elevate (request : Elevation) : Follows conduct (elevate request) := by
  refine .modify fun session => ?_
  split
  · exact conduct.refl session
  · exact conduct.beside ⟨rfl, rfl, rfl, rfl, rfl, rfl⟩

end PaperFolding.Session
