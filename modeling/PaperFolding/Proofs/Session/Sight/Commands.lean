import PaperFolding.Proofs.Session.Sight.Basic

/-!
What each command that runs no script looks at. The commands that make, fold or tell of paper look at the
paper, those that write documents at its color as well; nothing looks at the other features.
-/

namespace PaperFolding

/-- The path, the encoding, the color and the size are all that a plain engine takes from a document. -/
theorem Engine.writeDocument_congr (files : FileTree) (ledger : Ledger) {document document' : Document}
    (encoding : document.encoding = document'.encoding) (path : document.path = document'.path)
    (color : document.color = document'.color) (frameSize : document.frameSize = document'.frameSize) :
    Engine.writeDocument files ledger document = Engine.writeDocument files ledger document' := by
  simp only [writeDocument, writeArchive, writePicture, encoding, path, color, frameSize]

namespace Session

variable {sight : Sight} {first second : Session}

namespace Blind

theorem paper (seesPaper : sight.paper = true) (word : String) : Blind sight (paper word) := by
  apply get_bind
  · intro first second resembles
    simp only [resembles.model seesPaper]
  · intro session
    split
    · exact pure _
    · exact throw _

theorem requiredFilename (word : String) : Blind sight (requiredFilename word) := by
  apply get_bind
  · intro first second resembles
    simp only [resembles.filename]
  · intro session
    split
    · exact pure _
    · exact throw _

theorem require (level : Level) : Blind sight (require level) := by
  apply get_bind
  · intro first second resembles
    rw [resembles.access]
  · exact fun _ => refuseIf _ _

theorem note (call : Call) : Blind sight (note call) :=
  modify fun resembles => resembles.noting call call

theorem clearStage : Blind sight clearStage := modify Resembles.clearStage

theorem replacePaper (ledger : Ledger) : Blind sight (replacePaper ledger) :=
  modify fun resembles => resembles.replacing ledger

theorem rebase (scope : Scope) (construction : String) (rest : List String) :
    Blind sight (rebase scope construction rest) :=
  modify fun resembles => resembles.rebasing scope construction rest

theorem refusing {α : Type} (result : Except Refusal α) : Blind sight (refusing result) := by
  cases result with
  | ok value => exact pure value
  | error refusal => exact throw _

theorem obey (seesPaper : sight.paper = true) (parameter : Parameter) (arguments : List String) :
    Blind sight (parameter.obey arguments) := by
  apply get_bind
  · intro first second resembles
    have placing : first.placing = second.placing := by
      unfold Session.placing
      rw [resembles.model seesPaper, resembles.engine]
    simp only [placing]
  · intro session
    exact bind (lift _) fun setting => modify fun resembles => resembles.apply setting

end Blind

/-! ## What is done in both sessions -/

namespace Resembles

theorem depth (resembles : Resembles sight first second) (seesPaper : sight.paper = true) :
    first.depth = second.depth := by
  rw [Session.depth, Session.depth, resembles.model seesPaper, resembles.engine]

theorem note (resembles : Resembles sight first second) (call call' : Call) :
    Meets (Resembles sight) ((note call).on first) ((Session.note call').on second) :=
  .of_related rfl (resembles.noting call call')

theorem refuseIf (resembles : Resembles sight first second) {condition condition' : Prop}
    [Decidable condition] [Decidable condition'] {fault fault' : Fault}
    (same : condition ↔ condition') (alike : fault = fault') :
    Meets (Resembles sight) ((refuseIf condition fault).on first)
      ((Session.refuseIf condition' fault').on second) := by
  rw [on_refuseIf, on_refuseIf, alike]
  refine .of_related ?_ resembles
  simp only [same]

theorem withFiles (resembles : Resembles sight first second)
    {step step' : FileTree → Except Fault Unit × FileTree} (same : ∀ files, step files = step' files) :
    Meets (Resembles sight) ((withFiles step).on first) ((Session.withFiles step').on second) := by
  have on_step (step : FileTree → Except Fault Unit × FileTree) (session : Session) :
      (Session.withFiles step).on session = ((step session.world.files).1,
        { session with world := { session.world with files := (step session.world.files).2 } }) := rfl
  rw [on_step, on_step, resembles.files, same]
  exact .of_related rfl (resembles.filing _)

/-- A fold that fails leaves the sessions alike as well. -/
theorem fold (resembles : Resembles sight first second) (seesPaper : sight.paper = true)
    (word : String) (call : Call) (step : Engine → Ledger → Except Refusal Ledger) :
    ((fold word call step).on second).1 = ((Session.fold word call step).on first).1 ∧
      Resembles sight ((Session.fold word call step).on first).2
        ((Session.fold word call step).on second).2 := by
  rw [on_fold, on_fold, ← resembles.model seesPaper, ← resembles.engine]
  cases first.model with
  | none => exact ⟨rfl, resembles⟩
  | some ledger =>
      dsimp only
      cases step first.engine ledger with
      | error refusal => exact ⟨rfl, resembles.noting call call⟩
      | ok folded => exact ⟨rfl, (resembles.noting call call).holding folded⟩

end Resembles

/-! ## Commands that look at the paper -/

theorem blind_stagedSheet (stage : Stage) : Blind sight (stagedSheet stage) := by
  unfold stagedSheet
  split
  · refine .bind (.note _) fun _ => .get_bind (fun resembles => ?_) fun _ => .pure _
    simp only [resembles.engine]
  · refine .bind (.note _) fun _ => .get_bind (fun resembles => ?_) fun _ =>
      .bind (.lift _) fun _ => .pure _
    simp only [resembles.engine]

section Paper

variable (seesPaper : sight.paper = true)
include seesPaper

theorem blind_fold (word : String) (call : Call) (step : Engine → Ledger → Except Refusal Ledger) :
    Blind sight (fold word call step) := by
  intro first second resembles
  obtain ⟨outcome, related⟩ := resembles.fold seesPaper word call step
  exact .of_related outcome related

theorem blind_regionAt (word : String) (point : Planar) : Blind sight (regionAt word point) := by
  apply Blind.bind (.paper seesPaper word)
  intro ledger
  apply Blind.bind (.note _)
  intro _
  apply Blind.get_bind
  · intro first second resembles
    simp only [resembles.engine]
  · exact fun _ => .refusing _

theorem blind_restriction (word : String) (plane : Plane) :
    Blind sight (restriction word plane) := by
  apply Blind.get_bind
  · intro first second resembles
    simp only [resembles.stage seesPaper]
  · intro session
    split
    · exact .pure none
    · exact .bind (blind_fold seesPaper word _ _) fun _ =>
        (blind_regionAt seesPaper word _).map some

theorem blind_foldAlong (word : String) (plane : Plane) (operation : Operation) :
    Blind sight (foldAlong word plane operation) :=
  .bind (blind_restriction seesPaper word plane) fun _ =>
    .bind (blind_fold seesPaper word _ _) fun _ => .clearStage

theorem blind_rotate : Blind sight rotate := by
  apply Blind.get_bind
  · intro first second resembles
    simp only [resembles.stage seesPaper]
  · exact fun _ => .bind (.lift _) fun _ => .bind (.lift _) fun _ => blind_foldAlong seesPaper _ _ _

theorem blind_reflect : Blind sight reflect := by
  apply Blind.get_bind
  · intro first second resembles
    simp only [resembles.stage seesPaper]
  · exact fun _ => .bind (.lift _) fun _ => blind_foldAlong seesPaper _ _ _

theorem blind_cut : Blind sight cut := by
  apply Blind.get_bind
  · intro first second resembles
    simp only [resembles.stage seesPaper]
  · exact fun _ => .bind (.lift _) fun _ => blind_foldAlong seesPaper _ _ _

theorem blind_redo : Blind sight redo := .bind (blind_fold seesPaper _ _ _) fun _ => .clearStage

theorem blind_undoOr {otherwise : Action Unit} (blind : Blind sight otherwise) :
    Blind sight (undoOr otherwise) := by
  apply Blind.get_bind
  · intro first second resembles
    simp only [resembles.depth seesPaper]
  · intro session
    refine .bind ?_ fun _ => .clearStage
    split
    · exact blind_fold seesPaper _ _ _
    · exact blind

theorem blind_makePaper (scope : Scope) (rest : List String) : Blind sight (makePaper scope rest) := by
  apply Blind.get_bind
  · intro first second resembles
    dsimp only
    rw [resembles.stage seesPaper]
  · intro session
    apply Blind.bind (.refuseIf _ _)
    intro _
    apply Blind.bind (blind_stagedSheet session.stage)
    rintro ⟨ledger, construction⟩
    exact .bind (.replacePaper ledger) fun _ => .bind (.rebase scope construction rest) fun _ =>
      .clearStage

theorem blind_diagnose : Blind sight diagnose := by
  apply Blind.bind (.paper seesPaper _)
  intro ledger
  exact .modify fun resembles => { resembles with
    transcript := fun seen => by simp only [resembles.transcript seen] }

theorem blind_writeDocument (seesColor : sight.color = true) (encoding : Encoding) :
    Blind sight (writeDocument encoding) := by
  apply Blind.bind (.requiredFilename _)
  intro path first second resembles
  have color : first.documentColor encoding = second.documentColor encoding := by
    rw [documentColor, documentColor, resembles.color seesColor, resembles.settings]
  apply Meets.get_bind
  apply Meets.bind (resembles.refuseIf (by rw [resembles.files, resembles.access])
    (by rw [resembles.access]))
  intro _ _ _ permitted
  apply Meets.bind (permitted.refuseIf (by rw [resembles.stage seesPaper]) rfl)
  intro _ _ _ titled
  apply Meets.bind (Blind.paper seesPaper _ _ _ titled)
  intro ledger _ _ held
  apply Meets.bind (held.note _ _)
  intro _ _ _ noted
  refine Meets.bind (noted.withFiles fun files => ?_) fun _ _ _ written =>
    .of_related rfl written.clearStage
  rw [resembles.plain, resembles.plain']
  exact Engine.writeDocument_congr files ledger rfl rfl color
    (congrArg Settings.frameSize resembles.settings)

end Paper

/-! ## Commands that leave the paper out of sight -/

theorem blind_reopen (scope : Scope) (rest : List String) : Blind sight (reopen scope rest) := by
  apply Blind.bind (.requiredFilename _)
  intro path
  apply Blind.bind (.note _)
  intro _
  apply Blind.get_bind
  · intro first second resembles
    simp only [resembles.engine]
  intro session
  apply Blind.get_bind
  · intro first second resembles
    simp only [resembles.files]
  intro session'
  apply Blind.bind (.lift _)
  intro archive
  refine .bind (.modify fun resembles => ?_) fun _ =>
    .bind (.replacePaper _) fun _ => .rebase scope _ rest
  exact { resembles with color := fun _ => by simp only [resembles.settings] }

theorem blind_loadTexture : Blind sight loadTexture := by
  apply Blind.bind (.requiredFilename _)
  intro path
  apply Blind.get_bind
  · intro first second resembles
    simp only [resembles.files]
  intro session
  apply Blind.bind (.lift _)
  intro picture
  exact .modify fun resembles => { resembles with texture := fun _ => rfl }

theorem blind_unloadTexture : Blind sight unloadTexture :=
  .modify fun resembles => { resembles with texture := fun _ => rfl }

theorem blind_elevate (request : Elevation) : Blind sight (elevate request) := by
  apply Blind.modify
  intro first second resembles
  obtain ⟨granted, left⟩ := confirm_of_replies resembles.replies request
  simp only [resembles.access]
  split
  · exact resembles
  · exact { resembles with
      access := by simp only [granted]
      replies := left }

end Session

end PaperFolding
