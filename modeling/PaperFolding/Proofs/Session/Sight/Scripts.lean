import PaperFolding.Proofs.Session.Execution
import PaperFolding.Proofs.Session.Sight.Commands

/-!
What scripts look at, and the scripts they run. A script in a sandbox looks at nothing that can be out of
sight; a script that is loaded looks at the paper and, when it writes documents, at its color.
-/

namespace PaperFolding

/-- All that the command looks at can be seen. -/
def Sight.admits (sight : Sight) : Command → Bool
  | .compile | .reopen | .loadTexture | .unloadTexture | .elevate _ => true
  | .load | .write _ => sight.paper && sight.color
  | .new | .rotate | .reflect | .cut | .undo | .redo | .diagnose => sight.paper

theorem Sight.admits_of_seen {sight : Sight} (seesPaper : sight.paper = true)
    (seesColor : sight.color = true) (command : Command) : sight.admits command = true := by
  cases command <;> simp [admits, seesPaper, seesColor]

namespace Session

variable {sight : Sight} {first second : Session} {scope : Scope} {rest : List String}

theorem blind_checkpoint (scope : Scope) : Blind sight (checkpoint scope) := by
  intro first second resembles
  rw [on_checkpoint, on_checkpoint, resembles.unwatched.unstopped, resembles.unwatched'.unstopped]
  exact .of_related rfl resembles

theorem blind_permit {command : Command} (admits : sight.admits command = true) :
    Blind sight (permit command) := by
  apply Blind.bind (.require _)
  intro _
  split
  · rename_i needs
    refine .bind (.paper ?_ _) fun _ => .pure ()
    cases command with
    | write encoding => exact (Bool.and_eq_true_iff.1 admits).1
    | rotate | reflect | cut | undo | redo | diagnose => exact admits
    | _ => cases needs
  · exact .pure ()

theorem blind_obeyParameter (seesPaper : sight.paper = true) (scope : Scope) (parameter : Parameter)
    (rest : List String) : Blind sight (obeyParameter scope parameter rest) := by
  apply Blind.bind (.obey seesPaper parameter _)
  intro _
  split
  · exact .modify fun resembles => resembles.remembering _ _
  · exact .pure ()

theorem blind_scriptFile (word : String) : Blind sight (scriptFile word) := by
  apply Blind.bind (.requiredFilename word)
  intro path
  apply Blind.get_bind
  · intro first second resembles
    simp only [resembles.files]
  · exact fun _ => .bind (.lift _) fun _ => .pure _

/-- Scripts from files look at no more than what they are run with. -/
structure BlindScripts (nested : Nested) : Prop where
  load : ∀ {sight : Sight}, sight.paper = true → sight.color = true → ∀ cancellable source,
    Blind sight (nested.load cancellable source)
  compile : ∀ {sight : Sight} cancellable source, Blind sight (nested.compile cancellable source)

section Scripts

variable {nested : Nested} {takeBack : List String → Action Unit}

theorem blind_obey (scripts : BlindScripts nested) (takesBack : ∀ rest, Blind sight (takeBack rest))
    {command : Command} (admits : sight.admits command = true) (rest : List String) :
    Blind sight (obey nested scope takeBack command rest) := by
  cases command with
  | new => exact blind_makePaper admits scope rest
  | rotate => exact blind_rotate admits
  | reflect => exact blind_reflect admits
  | cut => exact blind_cut admits
  | undo => exact blind_undoOr admits (takesBack rest)
  | redo => exact blind_redo admits
  | compile =>
      apply Blind.bind (blind_scriptFile _)
      rintro ⟨path, source⟩
      exact .bind (scripts.compile scope.cancellable source) fun _ => .clearStage
  | load =>
      obtain ⟨seesPaper, seesColor⟩ := Bool.and_eq_true_iff.1 admits
      apply Blind.bind (blind_scriptFile _)
      rintro ⟨path, source⟩
      exact .bind (scripts.load seesPaper seesColor scope.cancellable source) fun _ =>
        .bind (.rebase scope _ rest) fun _ => .clearStage
  | reopen => exact blind_reopen scope rest
  | loadTexture => exact blind_loadTexture
  | unloadTexture => exact blind_unloadTexture
  | write encoding =>
      obtain ⟨seesPaper, seesColor⟩ := Bool.and_eq_true_iff.1 admits
      exact blind_writeDocument seesPaper seesColor encoding
  | diagnose => exact blind_diagnose admits
  | elevate request => exact blind_elevate request

theorem blind_obeyCommand {run : Command → List String → Action Unit} {command : Command}
    (admits : sight.admits command = true) (blind : Blind sight (run command rest)) :
    Blind sight (obeyCommand run scope command rest) := by
  apply Blind.bind (blind_permit admits)
  intro _
  apply Blind.bind blind
  intro _
  split
  · exact .modify Resembles.applying
  · exact .pure ()

theorem blind_obeyToken {run : Command → List String → Action Unit} {token : String}
    (seesPaper : sight.paper = true)
    (admits : ∀ command, Keyword.ofWord? token = some (.command command) →
      sight.admits command = true)
    (blind : ∀ command, sight.admits command = true → Blind sight (run command rest)) :
    Blind sight (obeyToken run scope token rest) := by
  unfold obeyToken
  split
  · exact .pure ()
  · apply Blind.bind (blind_checkpoint scope)
    intro _
    unfold obeyWord
    split
    · rename_i command found
      exact blind_obeyCommand (admits command found) (blind command (admits command found))
    · exact blind_obeyParameter seesPaper scope _ rest
    · exact .pure ()

/-- Every command of the row looks only at what can be seen. -/
def Sight.AdmitsRow (sight : Sight) (row : List String) : Prop :=
  ∀ word ∈ row, ∀ command, Keyword.ofWord? word = some (.command command) →
    sight.admits command = true

theorem blind_dispatch {run : Command → List String → Action Unit} {row : List String}
    (seesPaper : sight.paper = true) (admits : Sight.AdmitsRow sight row)
    (blind : ∀ command rest, sight.admits command = true → Blind sight (run command rest)) :
    Blind sight (dispatch run scope row) := by
  induction row with
  | nil => exact .pure ()
  | cons token rest induction =>
      obtain ⟨here, others⟩ := List.forall_mem_cons.1 admits
      exact .bind (blind_obeyToken seesPaper here fun command => blind command rest) fun _ =>
        induction others

theorem blind_runBody (scripts : BlindScripts nested) (seesPaper : sight.paper = true)
    {row : List String} (admits : Sight.AdmitsRow sight row) (cancellable : Bool) :
    Blind sight (runBody nested cancellable row) :=
  blind_dispatch seesPaper admits fun _ rest admits =>
    blind_obey scripts (fun _ => .throw _) admits rest

/-! ## Starting over -/

namespace Resembles

theorem repeating (resembles : Resembles sight first second) (seesPaper : sight.paper = true)
    (word : String) (call : Call) (step : Engine → Ledger → Except Refusal Ledger) (count : Nat) :
    Resembles sight (repeating (Session.fold word call step) count first)
      (Session.repeating (Session.fold word call step) count second) := by
  induction count generalizing first second with
  | zero => exact resembles
  | succ count induction =>
      obtain ⟨outcome, related⟩ := resembles.fold seesPaper word call step
      rw [Session.repeating, Session.repeating]
      revert outcome related
      rcases (Session.fold word call step).on first with ⟨_ | _, after⟩
      all_goals
        rcases (Session.fold word call step).on second with ⟨_, after'⟩
        rintro ⟨⟩ related
      · exact related
      · exact induction related

theorem rewind (resembles : Resembles sight first second) (seesPaper : sight.paper = true)
    (target : Nat) : Resembles sight (first.rewind target) (second.rewind target) := by
  unfold Session.rewind
  rw [resembles.depth seesPaper]
  split
  · exact resembles
  · split
    · exact resembles.repeating seesPaper _ _ _ _
    · exact resembles.repeating seesPaper _ _ _ _

theorem shortening (resembles : Resembles .everything first second) (recording : Bool)
    (steps : Nat) :
    Resembles .everything (first.shortening recording steps) (second.shortening recording steps) := by
  have dropped :
      Resembles .everything (first.dropping recording steps) (second.dropping recording steps) := by
    unfold dropping
    rw [resembles.history rfl, resembles.draft rfl]
    exact { resembles.rewriting fun _ => rfl with draft := fun _ => rfl }
  exact { dropped.rewind rfl 0 with stage := fun _ => rfl, camera := fun _ => rfl }

theorem resuming (resembles : Resembles .everything first second) (recording : Bool)
    (rest : List String) :
    Resembles .everything (first.resuming recording rest) (second.resuming recording rest) := by
  simp only [Session.resuming]
  rw [resembles.history rfl]
  split
  · exact { resembles.rewriting fun _ => rfl with draft := fun _ => rfl }
  · exact resembles

theorem enter (resembles : Resembles .everything first second) (statement : String) :
    Resembles .everything (first.enter statement) (second.enter statement) :=
  { resembles with
    history := fun _ => congrArg (· ++ [statement]) (resembles.history rfl)
    draft := fun _ => rfl }

theorem settle (resembles : Resembles sight first second) :
    Resembles sight first.settle second.settle := { resembles with draft := fun _ => rfl }

end Resembles

theorem admitsRow_everything (row : List String) : Sight.AdmitsRow .everything row :=
  fun _ _ command _ => Sight.admits_of_seen rfl rfl command

theorem blind_replay (scripts : BlindScripts nested) : Blind .everything (replay nested) := by
  apply Blind.get_bind
  · intro first second resembles
    simp only [resembles.history rfl]
  · exact fun _ => .atLevel (.forM fun _ =>
      blind_runBody scripts rfl (admitsRow_everything _) false)

theorem blind_replayUndo (scripts : BlindScripts nested) (recording : Bool) (steps : Nat)
    (rest : List String) : Blind .everything (replayUndo nested recording steps rest) :=
  .bind (.modify fun resembles => resembles.shortening recording steps) fun _ =>
    .bind (blind_replay scripts) fun _ => .modify fun resembles => resembles.resuming recording rest

theorem blind_runRecorded (scripts : BlindScripts nested) (cancellable : Bool) (row : List String) :
    Blind .everything (runRecorded nested cancellable row) :=
  blind_dispatch rfl (admitsRow_everything row) fun _ rest admits =>
    blind_obey scripts (blind_replayUndo scripts true 1) admits rest

theorem blind_attempt (scripts : BlindScripts nested) (cancellable : Bool) (statement : String) :
    Blind .everything (attempt nested cancellable statement) := by
  intro first second resembles
  have meets := blind_runRecorded scripts cancellable (Script.tokens statement) _ _
    (resembles.enter statement)
  rw [on_attempt, on_attempt]
  constructor
  · rw [concluding_outcome, concluding_outcome]
    exact meets.outcome
  · rintro ⟨⟩ done
    rw [concluding_outcome] at done
    have done' := meets.outcome.trans done
    rw [concluding_of_ok done, concluding_of_ok done']
    exact (meets.related () done).settle

end Scripts

theorem blindScripts_ofDepth (depth : Nat) : BlindScripts (.ofDepth depth) := by
  induction depth with
  | zero => exact ⟨fun _ _ _ _ => .throw _, fun _ _ => .throw _⟩
  | succ depth induction =>
      constructor
      · intro sight seesPaper seesColor cancellable source
        rw [Nested.load_ofDepth]
        exact .atLevel (blind_runBody induction seesPaper
          (fun _ _ command _ => Sight.admits_of_seen seesPaper seesColor command) cancellable)
      · intro sight cancellable source
        rw [Nested.compile_ofDepth]
        exact .inSandbox (blind_attempt induction cancellable source)

end Session

end PaperFolding
