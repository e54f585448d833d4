import PaperFolding.Proofs.Session.Kinship.Basic

/-!
Every command that runs no script does the same in two sessions that are kin. Three of them see what the
sessions differ in: the one that is refused below its level, the one that overwrites, and the one that
asks for a higher level.
-/

namespace PaperFolding.Session

variable {kinship : Kinship} {exact : Prop} {first second : Session}

namespace Shared

theorem paper (word : String) : Shared kinship exact (paper word) := by
  apply get_bind fun _ => rfl
  intro session
  split
  · exact pure _
  · exact throw _

theorem requiredFilename (word : String) : Shared kinship exact (requiredFilename word) := by
  apply get_bind fun _ => rfl
  intro session
  split
  · exact pure _
  · exact throw _

theorem note (call : Call) : Shared kinship exact (note call) := modify fun kin => kin.noting call

theorem clearStage : Shared kinship exact clearStage := modify Kin.clearStage

theorem replacePaper (ledger : Ledger) : Shared kinship exact (replacePaper ledger) :=
  modify fun kin => kin.replacing ledger

theorem rebase (scope : Scope) (construction : String) (rest : List String) :
    Shared kinship exact (rebase scope construction rest) :=
  modify fun kin => kin.rebasing scope construction rest

theorem refusing {α : Type} (result : Except Refusal α) : Shared kinship exact (refusing result) := by
  cases result with
  | ok value => exact pure value
  | error refusal => exact throw _

theorem obey (parameter : Parameter) (arguments : List String) :
    Shared kinship exact (parameter.obey arguments) := by
  apply get_bind fun _ => rfl
  intro session
  apply bind (lift _)
  intro setting
  exact modify fun kin => kin.apply setting

end Shared

/-! ## Folding, undoing and redoing -/

theorem shared_fold (word : String) (call : Call) (step : Engine → Ledger → Except Refusal Ledger) :
    Shared kinship exact (fold word call step) := by
  apply Shared.bind (.paper word)
  intro ledger
  apply Shared.bind (.note call)
  intro _
  apply Shared.get_bind fun _ => rfl
  intro session
  apply Shared.bind (.refusing _)
  intro folded
  exact .modify fun kin => kin.holding folded

theorem shared_regionAt (word : String) (point : Planar) :
    Shared kinship exact (regionAt word point) := by
  apply Shared.bind (.paper word)
  intro ledger
  apply Shared.bind (.note _)
  intro _
  exact .get_bind (fun _ => rfl) fun _ => .refusing _

theorem shared_restriction (word : String) (plane : Plane) :
    Shared kinship exact (restriction word plane) := by
  apply Shared.get_bind fun _ => rfl
  intro session
  split
  · exact .pure none
  · apply Shared.bind (shared_fold word _ _)
    intro _
    exact (shared_regionAt word _).map some

theorem shared_foldAlong (word : String) (plane : Plane) (operation : Operation) :
    Shared kinship exact (foldAlong word plane operation) :=
  .bind (shared_restriction word plane) fun _ => .bind (shared_fold word _ _) fun _ => .clearStage

theorem shared_rotate : Shared kinship exact rotate :=
  .get_bind (fun _ => rfl) fun _ => .bind (.lift _) fun _ => .bind (.lift _) fun _ =>
    shared_foldAlong _ _ _

theorem shared_reflect : Shared kinship exact reflect :=
  .get_bind (fun _ => rfl) fun _ => .bind (.lift _) fun _ => shared_foldAlong _ _ _

theorem shared_cut : Shared kinship exact cut :=
  .get_bind (fun _ => rfl) fun _ => .bind (.lift _) fun _ => shared_foldAlong _ _ _

theorem shared_redo : Shared kinship exact redo :=
  .bind (shared_fold _ _ _) fun _ => .clearStage

theorem shared_undoOr {otherwise : Action Unit} (shared : Shared kinship exact otherwise) :
    Shared kinship exact (undoOr otherwise) := by
  apply Shared.get_bind fun _ => rfl
  intro session
  refine .bind ?_ fun _ => .clearStage
  split
  · exact shared_fold _ _ _
  · exact shared

namespace Kin

theorem repeating (kin : Kin kinship first second) {step : Action Unit}
    (shared : Shared kinship True step) (count : Nat) :
    Kin kinship (repeating step count first) (Session.repeating step count second) := by
  induction count generalizing first second with
  | zero => exact kin
  | succ count induction =>
      have front := shared first second kin (.inl trivial)
      rw [Session.repeating, Session.repeating]
      revert front
      rcases step.on first with ⟨_ | _, after⟩
      · rcases step.on second with ⟨_, after'⟩
        rintro ⟨⟨⟩, kin⟩
        exact kin
      · rcases step.on second with ⟨_, after'⟩
        rintro ⟨⟨⟩, kin⟩
        exact induction kin

theorem rewind (kin : Kin kinship first second) (target : Nat) :
    Kin kinship (first.rewind target) (second.rewind target) := by
  unfold Session.rewind
  rw [kin.reads Session.depth fun _ => rfl]
  split
  · exact kin
  · split
    · exact kin.repeating (shared_fold _ _ _) _
    · exact kin.repeating (shared_fold _ _ _) _

theorem rewinding (kin : Kin kinship first second) (depth : Option Nat) :
    Kin kinship (first.rewinding depth) (second.rewinding depth) := by
  cases depth with
  | none => exact kin
  | some depth => exact kin.rewind depth

theorem shortening (kin : Kin kinship first second) (recording : Bool) (steps : Nat) :
    Kin kinship (first.shortening recording steps) (second.shortening recording steps) := by
  have dropped : Kin kinship (first.dropping recording steps) (second.dropping recording steps) := by
    unfold dropping
    rw [kin.reads Session.history fun _ => rfl, kin.reads Session.draft fun _ => rfl]
    exact (kin.rewriting _).drafting _
  exact (dropped.rewind 0).change unstaged (fun _ => rfl) (fun _ => rfl) (fun _ => rfl) fun _ => rfl

theorem returning (kin : Kin kinship first second) (entries : Nat) :
    Kin kinship (first.returning entries) (second.returning entries) := by
  unfold Session.returning
  rw [kin.keptHistory, kin.keptPaper]
  exact kin.change (fun session => { session with history := _, model := _ }) (fun _ => rfl)
    (fun _ => rfl) (fun _ => rfl) fun _ => rfl

theorem putBack (kin : Kin kinship first second) {transaction transaction' : Transaction}
    (saves : Saves kinship transaction transaction') :
    Kin kinship (first.putBack transaction) (second.putBack transaction') where
  core := by
    have restored (transaction : Transaction) (session : Session) :
        (session.putBack transaction).core =
          (session.core.putBack transaction.unleveled).core := rfl
    rw [restored, restored transaction', kin.core, saves.unleveled]
  level := saves.level
  saved := kin.saved
  world := kin.world

theorem rollback (kin : Kin kinship first second) {transaction transaction' : Transaction}
    (saves : Saves kinship transaction transaction') :
    Kin kinship (first.rollback transaction) (second.rollback transaction') := by
  have entries : transaction.entries = transaction'.entries := by
    have same := congrArg Transaction.entries saves.unleveled
    exact same
  have depth : transaction.depth = transaction'.depth := by
    have same := congrArg Transaction.depth saves.unleveled
    exact same
  rw [Session.rollback, Session.rollback, ← entries, ← depth]
  exact ((kin.returning _).rewinding _).putBack saves

theorem recover (kin : Kin kinship first second) : Kin kinship first.recover second.recover := by
  have saved := kin.saved
  unfold Session.recover
  revert saved
  generalize first.transaction = kept, second.transaction = kept'
  intro saved
  cases saved with
  | none => exact kin
  | some saves => exact kin.rollback saves

end Kin

/-! ## Other commands -/

theorem shared_stagedSheet (stage : Stage) : Shared kinship exact (stagedSheet stage) := by
  unfold stagedSheet
  split
  · apply Shared.bind (.note _)
    intro _
    exact .get_bind (fun _ => rfl) fun _ => .pure _
  · apply Shared.bind (.note _)
    intro _
    exact .get_bind (fun _ => rfl) fun _ => .bind (.lift _) fun _ => .pure _

theorem shared_makePaper (scope : Scope) (rest : List String) :
    Shared kinship exact (makePaper scope rest) := by
  apply Shared.get_bind fun _ => rfl
  intro session
  apply Shared.bind (.refuseIf _ _)
  intro _
  apply Shared.bind (shared_stagedSheet session.stage)
  rintro ⟨ledger, construction⟩
  exact .bind (.replacePaper ledger) fun _ => .bind (.rebase scope construction rest) fun _ =>
    .clearStage

theorem shared_reopen (scope : Scope) (rest : List String) :
    Shared kinship exact (reopen scope rest) := by
  apply Shared.bind (.requiredFilename _)
  intro path
  apply Shared.bind (.note _)
  intro _
  apply Shared.get_bind fun _ => rfl
  intro session
  apply Shared.get_bind fun _ => rfl
  intro session'
  apply Shared.bind (.lift _)
  intro archive
  refine .bind (.modify fun kin => ?_) fun _ =>
    .bind (.replacePaper _) fun _ => .rebase scope _ rest
  exact kin.change
    (fun session => { session with color := archive.color.getD session.settings.resetColor })
    (fun _ => rfl) (fun _ => rfl) (fun _ => rfl) fun _ => rfl

theorem shared_loadTexture : Shared kinship exact loadTexture := by
  apply Shared.bind (.requiredFilename _)
  intro path
  apply Shared.get_bind fun _ => rfl
  intro session
  apply Shared.bind (.lift _)
  intro picture
  exact .modify fun kin => kin.change (fun session => { session with texture := picture })
    (fun _ => rfl) (fun _ => rfl) (fun _ => rfl) fun _ => rfl

theorem shared_unloadTexture : Shared kinship exact unloadTexture :=
  .modify fun kin => kin.change (fun session => { session with texture := none })
    (fun _ => rfl) (fun _ => rfl) (fun _ => rfl) fun _ => rfl

theorem shared_diagnose : Shared kinship exact diagnose := by
  apply Shared.bind (.paper _)
  intro ledger
  exact .modify fun kin =>
    kin.change (fun session => { session with transcript := session.transcript ++ report ledger })
      (fun _ => rfl) (fun _ => rfl) (fun _ => rfl) fun _ => rfl

/-! ## Commands that see the level -/

theorem shared_elevate (request : Elevation) : Shared kinship exact (elevate request) := by
  apply Shared.modify
  intro first second kin
  obtain ⟨level, world⟩ := kinship.asking request kin.level kin.world
  have asked (session : Session) : ((elevate request).on session).2.core = session.core ∧
      ((elevate request).on session).2.transaction = session.transaction := by
    simp only [elevate, Action.on_modify]
    split
    · exact ⟨rfl, rfl⟩
    · exact ⟨rfl, rfl⟩
  refine ⟨?_, level, ?_, world⟩
  · exact (asked first).1.trans (kin.core.trans (asked second).1.symm)
  · have saved := kin.saved
    rw [← (asked first).2, ← (asked second).2] at saved
    exact saved

theorem tracks_refuseIf {condition condition' : Prop} [Decidable condition] [Decidable condition']
    {fault fault' : Fault} (kin : Kin kinship first second)
    (same : exact → (condition ↔ condition') ∧ fault = fault')
    (passes : ¬ condition → ¬ condition') :
    Tracks kinship exact ((refuseIf condition fault).on first)
      ((refuseIf condition' fault').on second) := by
  rw [on_refuseIf, on_refuseIf]
  by_cases refused : condition
  · rw [if_pos refused]
    apply Tracks.of_error rfl
    intro holds
    obtain ⟨iff, rfl⟩ := same holds
    exact ⟨if_pos (iff.1 refused), kin⟩
  · rw [if_neg refused, if_neg (passes refused)]
    exact .of_eq rfl kin

section Admitted

variable {cancellable : Bool}

theorem shared_require (admits : kinship.Admits exact cancellable) (level : Level) :
    Shared kinship exact (require level) := by
  intro first second kin
  apply tracks_refuseIf kin
  · intro holds
    rw [admits.level holds kin.level]
    exact ⟨Iff.rfl, rfl⟩
  · intro high low
    exact high (Nat.lt_of_le_of_lt (kinship.le kin.level) low)

theorem shared_permit (admits : kinship.Admits exact cancellable) (command : Command) :
    Shared kinship exact (permit command) := by
  apply Shared.bind (shared_require admits _)
  intro _
  split
  · exact .bind (.paper _) fun _ => .pure ()
  · exact .pure ()

theorem shared_withFiles (step : FileTree → Except Fault Unit × FileTree) :
    Shared kinship exact (withFiles step) := by
  intro first second kin
  have on_step (session : Session) : (withFiles step).on session =
      ((step session.world.files).1,
        { session with
          world := { session.world with files := (step session.world.files).2 } }) := rfl
  rw [on_step, on_step, kin.files]
  exact .of_eq rfl (kin.filing _)

/-- After a look at what the sessions differ in the action goes on with what they have in common. -/
theorem shared_get_refuseIf {β : Type} {condition : Session → Prop}
    [∀ session, Decidable (condition session)] {fault : Session → Fault} {rest : Session → Action β}
    (same : ∀ {first second}, Kin kinship first second → exact →
      (condition first ↔ condition second) ∧ fault first = fault second)
    (passes : ∀ {first second}, Kin kinship first second → ¬ condition first → ¬ condition second)
    (blind : ∀ session : Session, rest session.core = rest session)
    (others : ∀ session, Shared kinship exact (rest session)) :
    Shared kinship exact (do
      let session ← get
      refuseIf (condition session) (fault session)
      rest session) := by
  intro first second kin
  show Tracks kinship exact
    ((refuseIf (condition first) (fault first) >>= fun _ => rest first).on first)
    ((refuseIf (condition second) (fault second) >>= fun _ => rest second).on second)
  rw [kin.reads rest blind]
  apply Tracks.bind (tracks_refuseIf kin (same kin) (passes kin))
  intro _ after after' _ kin
  exact others second after after' kin

theorem shared_writeDocument (admits : kinship.Admits exact cancellable) (encoding : Encoding) :
    Shared kinship exact (writeDocument encoding) := by
  apply Shared.bind (.requiredFilename _)
  intro path
  apply shared_get_refuseIf
  · intro first second kin holds
    rw [kin.files, admits.level holds kin.level]
    exact ⟨Iff.rfl, rfl⟩
  · intro first second kin free refused
    rw [Bool.and_eq_true, decide_eq_true_eq, ← kin.files] at refused
    rw [Bool.and_eq_true, decide_eq_true_eq] at free
    exact free ⟨refused.1, Nat.lt_of_le_of_lt (kinship.le kin.level) refused.2⟩
  · exact fun _ => rfl
  · intro session
    apply Shared.bind (.refuseIf _ _)
    intro _
    apply Shared.bind (.paper _)
    intro ledger
    exact .bind (.note _) fun _ => .bind (shared_withFiles _) fun _ => .clearStage

end Admitted

end PaperFolding.Session
