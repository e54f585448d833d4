import PaperFolding.Proofs.Session.Execution
import PaperFolding.Proofs.Session.Kinship.Commands

/-!
Scripts and statements do the same in two sessions that are kin, and so do the scripts that they run. What
starts over cannot be stopped, and neither can anything that it runs.
-/

namespace PaperFolding.Session

variable {kinship : Kinship} {exact : Prop} {cancellable : Bool} {first second : Session}

theorem shared_checkpoint {scope : Scope} (admits : kinship.Admits exact scope.cancellable) :
    Shared kinship exact (checkpoint scope) := by
  intro first second kin
  apply tracks_refuseIf kin
  · intro holds
    rw [admits.stop kin.world (.inl holds)]
    exact ⟨Iff.rfl, rfl⟩
  · intro runs
    rw [Bool.not_eq_true] at runs
    rw [admits.stop kin.world (.inr runs), runs]
    exact Bool.false_ne_true

theorem shared_scriptFile (word : String) : Shared kinship exact (scriptFile word) := by
  apply Shared.bind (.requiredFilename word)
  intro path
  exact .get_bind (fun _ => rfl) fun _ => .bind (.lift _) fun _ => .pure _

theorem shared_obeyParameter (scope : Scope) (parameter : Parameter) (rest : List String) :
    Shared kinship exact (obeyParameter scope parameter rest) := by
  apply Shared.bind (.obey parameter _)
  intro _
  split
  · exact .modify fun kin => kin.change (remembering _ _) (fun _ => rfl) (fun _ => rfl)
      (fun _ => rfl) fun _ => rfl
  · exact .pure ()

/-- Scripts from files are shared, as far as the sessions admit that they can be stopped. -/
def SharesScripts (kinship : Kinship) (exact : Prop) (nested : Nested) : Prop :=
  ∀ cancellable, kinship.Admits exact cancellable → ∀ source,
    Shared kinship exact (nested.load cancellable source) ∧
      Shared kinship exact (nested.compile cancellable source)

section Scripts

variable {nested : Nested} {scope : Scope} {takeBack : List String → Action Unit}

theorem shared_obey (scripts : SharesScripts kinship exact nested)
    (admits : kinship.Admits exact scope.cancellable)
    (takesBack : ∀ rest, Shared kinship exact (takeBack rest)) (command : Command)
    (rest : List String) : Shared kinship exact (obey nested scope takeBack command rest) := by
  cases command with
  | new => exact shared_makePaper scope rest
  | rotate => exact shared_rotate
  | reflect => exact shared_reflect
  | cut => exact shared_cut
  | undo => exact shared_undoOr (takesBack rest)
  | redo => exact shared_redo
  | compile =>
      apply Shared.bind (shared_scriptFile _)
      rintro ⟨path, source⟩
      exact .bind (scripts scope.cancellable admits source).2 fun _ => .clearStage
  | load =>
      apply Shared.bind (shared_scriptFile _)
      rintro ⟨path, source⟩
      exact .bind (scripts scope.cancellable admits source).1 fun _ =>
        .bind (.rebase scope _ rest) fun _ => .clearStage
  | reopen => exact shared_reopen scope rest
  | loadTexture => exact shared_loadTexture
  | unloadTexture => exact shared_unloadTexture
  | write encoding => exact shared_writeDocument admits encoding
  | diagnose => exact shared_diagnose
  | elevate request => exact shared_elevate request

theorem shared_obeyCommand {run : Command → List String → Action Unit} {command : Command}
    {rest : List String} (admits : kinship.Admits exact cancellable)
    (shared : Shared kinship exact (run command rest)) :
    Shared kinship exact (obeyCommand run scope command rest) := by
  apply Shared.bind (shared_permit admits command)
  intro _
  apply Shared.bind shared
  intro _
  split
  · exact .modify fun kin => kin.change applying (fun _ => rfl) (fun _ => rfl) (fun _ => rfl)
      fun _ => rfl
  · exact .pure ()

theorem shared_obeyToken {run : Command → List String → Action Unit}
    (admits : kinship.Admits exact scope.cancellable)
    (shared : ∀ command rest, Shared kinship exact (run command rest)) (token : String)
    (rest : List String) : Shared kinship exact (obeyToken run scope token rest) := by
  unfold obeyToken
  split
  · exact .pure ()
  · apply Shared.bind (shared_checkpoint admits)
    intro _
    unfold obeyWord
    split
    · exact shared_obeyCommand admits (shared _ rest)
    · exact shared_obeyParameter scope _ rest
    · exact .pure ()

theorem shared_dispatch {run : Command → List String → Action Unit}
    (admits : kinship.Admits exact scope.cancellable)
    (shared : ∀ command rest, Shared kinship exact (run command rest)) (row : List String) :
    Shared kinship exact (dispatch run scope row) := by
  induction row with
  | nil => exact .pure ()
  | cons token rest induction =>
      exact .bind (shared_obeyToken admits shared token rest) fun _ => induction

theorem shared_runBody (scripts : SharesScripts kinship exact nested)
    (admits : kinship.Admits exact cancellable) (row : List String) :
    Shared kinship exact (runBody nested cancellable row) :=
  shared_dispatch admits (shared_obey scripts admits fun _ => .throw _) row

theorem shared_atLevel {level : Level} {action : Action Unit}
    (shared : Shared kinship exact action) : Shared kinship exact (atLevel level action) := by
  intro first second kin
  have tracks := shared _ _ (kin.withAccess (kinship.refl level))
  rw [on_atLevel, on_atLevel]
  intro matched
  obtain ⟨same, after⟩ := tracks matched
  exact ⟨same, after.withAccess kin.level⟩

theorem shared_inSandbox {action : Action Unit} (shared : Shared kinship exact action) :
    Shared kinship exact (inSandbox action) := by
  intro first second kin
  have tracks := shared _ _ kin.sandbox
  rw [on_inSandbox, on_inSandbox]
  intro matched
  obtain ⟨same, inside⟩ := tracks matched
  exact ⟨same, kin.closing inside⟩

theorem shared_replay (scripts : SharesScripts kinship exact nested)
    (admits : kinship.Admits exact cancellable) : Shared kinship exact (replay nested) :=
  .get_bind (fun _ => rfl) fun _ => shared_atLevel
    (.forM fun _ => shared_runBody scripts admits.unstoppable _)

theorem shared_replayUndo (scripts : SharesScripts kinship exact nested)
    (admits : kinship.Admits exact cancellable) (recording : Bool) (steps : Nat)
    (rest : List String) : Shared kinship exact (replayUndo nested recording steps rest) :=
  .bind (.modify fun kin => kin.shortening recording steps) fun _ =>
    .bind (shared_replay scripts admits) fun _ =>
      .modify fun kin => kin.resuming recording rest

theorem shared_runRecorded (scripts : SharesScripts kinship exact nested)
    (admits : kinship.Admits exact cancellable) (row : List String) :
    Shared kinship exact (runRecorded nested cancellable row) :=
  shared_dispatch admits (shared_obey scripts admits (shared_replayUndo scripts admits true 1)) row

theorem Tracks.concluding {run run' : Except Fault Unit × Session}
    (tracks : Tracks kinship exact run run') :
    Tracks kinship exact (concluding run) (Session.concluding run') := by
  rw [Tracks, concluding_outcome, concluding_outcome]
  intro matched
  obtain ⟨same, kin⟩ := tracks matched
  revert same kin
  rcases run with ⟨fault | _, after⟩
  · rcases run' with ⟨_, after'⟩
    rintro ⟨⟩ kin
    exact ⟨rfl, kin.recover.settle⟩
  · rcases run' with ⟨_, after'⟩
    rintro ⟨⟩ kin
    exact ⟨rfl, kin.settle⟩

theorem shared_attempt (scripts : SharesScripts kinship exact nested)
    (admits : kinship.Admits exact cancellable) (statement : String) :
    Shared kinship exact (attempt nested cancellable statement) := by
  intro first second kin
  rw [on_attempt, on_attempt]
  apply Tracks.concluding
  exact shared_runRecorded scripts admits _ _ _ (kin.enter statement)

end Scripts

theorem sharesScripts_ofDepth (kinship : Kinship) (exact : Prop) (depth : Nat) :
    SharesScripts kinship exact (.ofDepth depth) := by
  induction depth with
  | zero => exact fun _ _ _ => ⟨.throw _, .throw _⟩
  | succ depth induction =>
      intro cancellable admits source
      rw [Nested.load_ofDepth, Nested.compile_ofDepth]
      exact ⟨shared_atLevel (shared_runBody induction admits _),
        shared_inSandbox (shared_attempt induction admits source)⟩

theorem tracks_running (admits : kinship.Admits exact true) (kin : Kin kinship first second)
    (bound : first.nestingBound = second.nestingBound) (statement : String) :
    Tracks kinship exact (first.running statement) (second.running statement) := by
  rw [running, running, bound]
  exact shared_runRecorded (sharesScripts_ofDepth kinship exact _) admits _ _ _
    (kin.enter statement)

/-- The statement ends in the second session as it does in the first; if it fails there, only if failures
are matched. -/
theorem kin_executed (admits : kinship.Admits exact true) (kin : Kin kinship first second)
    (bound : first.nestingBound = second.nestingBound) {statement : String}
    (matched : exact ∨ first.failure statement = none) :
    second.failure statement = first.failure statement ∧
      Kin kinship (first.executed statement) (second.executed statement) := by
  have tracks := (tracks_running admits kin bound statement).concluding
  rw [← on_execute_running, ← on_execute_running] at tracks
  have matched : exact ∨ ∃ value, ((execute statement).on first).1 = .ok value := by
    apply matched.imp_right
    intro done
    exact ⟨(), faultOf_eq_none.1 done⟩
  obtain ⟨same, kin⟩ := tracks matched
  exact ⟨congrArg faultOf same, kin⟩

end PaperFolding.Session
