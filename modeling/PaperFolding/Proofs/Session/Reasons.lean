import PaperFolding.Proofs.Session.Surroundings

/-!
Why an action fails. What a command runs into by itself is told apart from a stop by the operator and from
scripts that are nested too deep, which only come from outside of it.
-/

namespace PaperFolding

/-- The fault is neither a stop nor a want of depth. -/
def Fault.IsOwn : Fault → Prop
  | .cancelled | .nestedTooDeep => False
  | _ => True

/-- The faults that are looked for; those that a command runs into by itself are among them. -/
structure Reasons where
  allows : Fault → Prop
  own : ∀ fault, fault.IsOwn → allows fault

namespace Reasons

variable {α β : Type} {reasons : Reasons}

/-- If the result is a fault, it is one of those. -/
def Cover (reasons : Reasons) (result : Except Fault α) : Prop :=
  ∀ fault, result = .error fault → reasons.allows fault

/-- Every fault but one, which is not met by a command itself. -/
def except (outer : Fault) (foreign : ¬ outer.IsOwn) : Reasons where
  allows fault := fault ≠ outer
  own := by
    rintro _ own rfl
    exact foreign own

theorem Cover.ne_error {outer : Fault} {foreign : ¬ outer.IsOwn} {result : Except Fault α}
    (covers : (except outer foreign).Cover result) : result ≠ .error outer :=
  fun failed => covers outer failed rfl

theorem cover_ok (value : α) : reasons.Cover (.ok value) := nofun

theorem cover_error {fault : Fault} (allowed : reasons.allows fault) :
    reasons.Cover (.error fault : Except Fault α) := by
  rintro _ ⟨⟩
  exact allowed

theorem cover_own {fault : Fault} (own : fault.IsOwn) :
    reasons.Cover (.error fault : Except Fault α) := cover_error (reasons.own fault own)

theorem Cover.bind {result : Except Fault α} {next : α → Except Fault β}
    (front : reasons.Cover result) (others : ∀ value, reasons.Cover (next value)) :
    reasons.Cover (result >>= next) := by
  cases result with
  | error fault =>
      rintro _ ⟨⟩
      exact front fault rfl
  | ok value => exact others value

theorem cover_mapError {cause : Type} (change : cause → Fault) (own : ∀ cause, (change cause).IsOwn)
    (result : Except cause α) : reasons.Cover (result.mapError change) := by
  cases result with
  | error refusal => exact cover_own (own refusal)
  | ok value => exact cover_ok value

/-! ## Parameters and the stage -/

theorem cover_malformed (parameter : Parameter) :
    reasons.Cover (parameter.malformed : Except Fault α) := cover_own trivial

theorem cover_reading (parameter : Parameter) (value : Option α) :
    reasons.Cover (parameter.reading value) := by
  cases value with
  | none => exact cover_malformed parameter
  | some value => exact cover_ok value

theorem cover_resolve (parameter : Parameter) (placing : Placing) (argument : String) :
    reasons.Cover (parameter.resolve placing argument) := by
  apply Cover.bind (cover_reading parameter _)
  intro point
  cases point with
  | spatial point => exact cover_ok point
  | planar point =>
      simp only
      split
      · exact cover_ok _
      · exact cover_own trivial

theorem cover_planeOf (plane : Except Degeneracy Plane) :
    reasons.Cover (Parameter.planeOf plane) := by
  cases plane with
  | ok plane => exact cover_ok _
  | error cause => exact cover_own trivial

theorem cover_sheetOf (parameter : Parameter) (argument : String) :
    reasons.Cover (parameter.sheetOf argument) := by
  unfold Parameter.sheetOf
  split
  · apply Cover.bind (cover_reading parameter _)
    intro numbers
    split
    · exact cover_ok _
    · exact cover_malformed parameter
  · split
    · exact cover_ok _
    · exact cover_own trivial
  · exact cover_malformed parameter

theorem cover_colorOf (parameter : Parameter) (argument : String) :
    reasons.Cover (parameter.colorOf argument) := by
  apply Cover.bind (cover_reading parameter _)
  intro numbers
  split
  · exact cover_ok _
  · exact cover_ok _
  · exact cover_malformed parameter

theorem cover_localeOf (parameter : Parameter) (argument : String) :
    reasons.Cover (parameter.localeOf argument) := by
  unfold Parameter.localeOf
  split
  · exact cover_ok _
  · exact cover_malformed parameter

theorem cover_setting (parameter : Parameter) (placing : Placing) (arguments : List String) :
    reasons.Cover (parameter.setting placing arguments) := by
  have resolves (argument : String) : reasons.Cover (parameter.resolve placing argument) :=
    cover_resolve parameter placing argument
  have reads {γ : Type} (value : Option γ) : reasons.Cover (parameter.reading value) :=
    cover_reading parameter value
  unfold Parameter.setting
  split
  case h_1 => exact (resolves _).bind fun _ => (reads _).bind fun _ => cover_ok _
  case h_2 | h_3 =>
    exact (resolves _).bind fun _ => (resolves _).bind fun _ => (resolves _).bind fun _ =>
      cover_planeOf _
  case h_4 => exact (resolves _).bind fun _ => cover_ok _
  case h_5 | h_6 | h_7 | h_9 => exact (reads _).bind fun _ => cover_ok _
  case h_8 => exact cover_sheetOf _ _
  case h_10 => exact cover_localeOf _ _
  case h_11 =>
    split
    · exact cover_malformed _
    · exact cover_ok _
  case h_12 | h_15 => exact cover_ok _
  case h_13 =>
    exact (reads _).bind fun _ => (reads _).bind fun _ => (reads _).bind fun _ => cover_ok _
  case h_14 => exact cover_colorOf _ _
  case h_16 => exact cover_malformed _

theorem cover_planeFor (stage : Stage) (word : String) : reasons.Cover (stage.planeFor word) := by
  unfold Stage.planeFor
  split
  · exact cover_ok _
  · exact cover_own trivial

theorem cover_foldAngle (stage : Stage) : reasons.Cover stage.foldAngle := by
  unfold Stage.foldAngle
  split
  · exact cover_ok _
  · exact cover_own trivial

/-! ## Documents -/

theorem cover_openTexture (files : FileTree) (path : String) :
    reasons.Cover (Picture.openTexture files path) := by
  unfold Picture.openTexture
  split
  · exact cover_own trivial
  · exact cover_own trivial
  · exact cover_own trivial
  · exact cover_own trivial
  · split
    · exact cover_own trivial
    · exact cover_own trivial
    · exact cover_ok _

theorem cover_openFile (files : FileTree) (path : String) :
    reasons.Cover (Engine.openFile files path) := by
  unfold Engine.openFile
  split
  · exact cover_own trivial
  · exact cover_mapError Fault.sheet (fun _ => trivial) _

theorem cover_writeFile (files : FileTree) (path text : String) :
    reasons.Cover (Engine.writeFile files path text).1 := by
  unfold Engine.writeFile
  split
  · exact cover_own trivial
  · exact cover_ok ()

theorem cover_writeDocument (files : FileTree) (ledger : Ledger) (document : Document) :
    reasons.Cover (Engine.writeDocument files ledger document).1 := by
  unfold Engine.writeDocument
  split
  · exact cover_writeFile files _ _
  · simp only [Engine.writePicture]
    split
    · exact cover_own trivial
    · exact cover_ok ()
  · exact cover_own trivial

end Reasons

/-- The engine fails for one of the reasons where it opens and writes documents. -/
structure Engine.FailsBy (reasons : Reasons) (engine : Engine) : Prop where
  opens : ∀ files path, reasons.Cover (engine.openArchive files path)
  writes : ∀ files ledger document, reasons.Cover (engine.write files ledger document).1

theorem Engine.failsBy_plain (reasons : Reasons) : Engine.plain.FailsBy reasons where
  opens := Reasons.cover_openFile
  writes := Reasons.cover_writeDocument

theorem Engine.failsBy_departing (departure : Departure) (reasons : Reasons) :
    (Engine.departing departure).FailsBy reasons where
  opens := Reasons.cover_openFile
  writes files ledger document := by
    show reasons.Cover (departure.write files ledger document).1
    unfold Departure.write
    split
    · exact Reasons.cover_writeFile files _ _
    · split
      · exact Reasons.cover_own trivial
      · exact Reasons.cover_writeDocument files ledger document

namespace Session

variable {α β : Type} {reasons : Reasons}

/-- With an engine that fails for one of the reasons the action does too, and it keeps that engine. -/
def FailsBy (reasons : Reasons) (action : Action α) : Prop :=
  ∀ session, session.engine.FailsBy reasons →
    reasons.Cover (action.on session).1 ∧ (action.on session).2.engine = session.engine

namespace FailsBy

theorem bind {action : Action α} {next : α → Action β} (front : FailsBy reasons action)
    (others : ∀ value, FailsBy reasons (next value)) : FailsBy reasons (action >>= next) := by
  intro session allowed
  have first := front session allowed
  rw [Action.on_bind]
  revert first
  rcases action.on session with ⟨fault | value, after⟩
  · rintro ⟨covers, same⟩
    exact ⟨Reasons.cover_error (covers fault rfl), same⟩
  · rintro ⟨-, same⟩
    obtain ⟨covers, kept⟩ := others value after (by rwa [same])
    exact ⟨covers, kept.trans same⟩

theorem get_bind {next : Session → Action β}
    (others : ∀ session, session.engine.FailsBy reasons → FailsBy reasons (next session)) :
    FailsBy reasons (get >>= next) := fun session allowed => others session allowed session allowed

theorem modify {change : Session → Session}
    (keeps : ∀ session, (change session).engine = session.engine) :
    FailsBy reasons (modify change : Action Unit) := fun session _ =>
  ⟨Reasons.cover_ok (), keeps session⟩

theorem lift {result : Except Fault α} (covers : reasons.Cover result) :
    FailsBy reasons (lift result) := by
  intro session _
  rw [on_lift]
  exact ⟨covers, rfl⟩

theorem pure (value : α) : FailsBy reasons (Pure.pure value) := lift (Reasons.cover_ok value)

theorem throw {fault : Fault} (allowed : reasons.allows fault) :
    FailsBy reasons (throw fault : Action α) := lift (Reasons.cover_error allowed)

theorem refuse {fault : Fault} (own : fault.IsOwn) :
    FailsBy reasons (MonadExcept.throw fault : Action α) := throw (reasons.own fault own)

theorem refuseIf {condition : Prop} [Decidable condition] {fault : Fault}
    (allowed : condition → reasons.allows fault) : FailsBy reasons (refuseIf condition fault) := by
  unfold Session.refuseIf
  split
  · rename_i holds
    exact throw (allowed holds)
  · exact pure ()

theorem forM {entries : List β} {action : β → Action Unit}
    (fails : ∀ entry, FailsBy reasons (action entry)) : FailsBy reasons (entries.forM action) := by
  induction entries with
  | nil => exact pure ()
  | cons entry entries induction => exact bind (fails entry) fun _ => induction

theorem paper (word : String) : FailsBy reasons (paper word) := by
  apply get_bind
  intro session _
  split
  · exact pure _
  · exact refuse trivial

theorem requiredFilename (word : String) : FailsBy reasons (requiredFilename word) := by
  apply get_bind
  intro session _
  split
  · exact pure _
  · exact refuse trivial

theorem note (call : Call) : FailsBy reasons (note call) := modify fun _ => rfl

theorem clearStage : FailsBy reasons clearStage := modify fun _ => rfl

theorem replacePaper (ledger : Ledger) : FailsBy reasons (replacePaper ledger) := modify fun _ => rfl

theorem rebase (scope : Scope) (construction : String) (rest : List String) :
    FailsBy reasons (rebase scope construction rest) := by
  apply modify
  intro session
  unfold rebasing
  split
  · rfl
  · rfl

theorem refusing (result : Except Refusal α) : FailsBy reasons (refusing result) := by
  cases result with
  | ok value => exact pure value
  | error refusal => exact refuse trivial

theorem obey (parameter : Parameter) (arguments : List String) :
    FailsBy reasons (parameter.obey arguments) := by
  apply get_bind
  intro session _
  apply bind (lift (Reasons.cover_setting parameter session.placing arguments))
  intro setting
  exact modify fun session => (beside_apply setting session).engine

theorem withFiles {step : FileTree → Except Fault Unit × FileTree}
    (covers : ∀ files, reasons.Cover (step files).1) : FailsBy reasons (withFiles step) :=
  fun session _ => ⟨covers session.world.files, rfl⟩

end FailsBy

/-! ## Commands -/

theorem failsBy_fold (word : String) (call : Call)
    (step : Engine → Ledger → Except Refusal Ledger) : FailsBy reasons (fold word call step) :=
  .bind (.paper word) fun _ => .bind (.note call) fun _ => .get_bind fun _ _ =>
    .bind (.refusing _) fun _ => .modify fun _ => rfl

theorem failsBy_restriction (word : String) (plane : Plane) :
    FailsBy reasons (restriction word plane) := by
  apply FailsBy.get_bind
  intro session _
  split
  · exact .pure none
  · apply FailsBy.bind (failsBy_fold word _ _)
    intro _
    rw [← bind_pure_comp]
    refine .bind ?_ fun _ => .pure _
    exact .bind (.paper word) fun _ => .bind (.note _) fun _ => .get_bind fun _ _ => .refusing _

theorem failsBy_foldAlong (word : String) (plane : Plane) (operation : Operation) :
    FailsBy reasons (foldAlong word plane operation) :=
  .bind (failsBy_restriction word plane) fun _ => .bind (failsBy_fold word _ _) fun _ => .clearStage

theorem failsBy_undoOr {otherwise : Action Unit} (fails : FailsBy reasons otherwise) :
    FailsBy reasons (undoOr otherwise) := by
  apply FailsBy.get_bind
  intro session _
  refine .bind ?_ fun _ => .clearStage
  split
  · exact failsBy_fold _ _ _
  · exact fails

theorem failsBy_makePaper (scope : Scope) (rest : List String) :
    FailsBy reasons (makePaper scope rest) := by
  apply FailsBy.get_bind
  intro session _
  refine .bind (.refuseIf fun _ => reasons.own _ trivial) ?_
  intro _
  have staged : FailsBy reasons (stagedSheet session.stage) := by
    unfold stagedSheet
    split
    · exact .bind (.note _) fun _ => .get_bind fun _ _ => .pure _
    · refine .bind (.note _) fun _ => .get_bind fun _ _ => .bind (.lift ?_) fun _ => .pure _
      exact Reasons.cover_mapError Fault.unbuildable (fun _ => trivial) _
  exact .bind staged fun (_, _) => .bind (.replacePaper _) fun _ =>
    .bind (.rebase scope _ rest) fun _ => .clearStage

theorem failsBy_reopen (scope : Scope) (rest : List String) :
    FailsBy reasons (reopen scope rest) := by
  apply FailsBy.bind (.requiredFilename _)
  intro path
  apply FailsBy.bind (.note _)
  intro _
  apply FailsBy.get_bind
  intro session allowed
  apply FailsBy.get_bind
  intro session' _
  apply FailsBy.bind (.lift (allowed.opens _ path))
  intro archive
  exact .bind (.modify fun _ => rfl) fun _ => .bind (.replacePaper _) fun _ => .rebase scope _ rest

theorem failsBy_writeDocument (encoding : Encoding) :
    FailsBy reasons (writeDocument encoding) := by
  apply FailsBy.bind (.requiredFilename _)
  intro path
  apply FailsBy.get_bind
  intro session allowed
  refine .bind (.refuseIf fun _ => reasons.own _ trivial) ?_
  intro _
  refine .bind (.refuseIf fun _ => reasons.own _ trivial) ?_
  intro _
  apply FailsBy.bind (.paper _)
  intro ledger
  apply FailsBy.bind (.note _)
  intro _
  exact .bind (.withFiles fun files => allowed.writes files ledger _) fun _ => .clearStage

theorem failsBy_elevate (request : Elevation) : FailsBy reasons (elevate request) := by
  apply FailsBy.modify
  intro session
  split
  · rfl
  · rfl

theorem failsBy_permit (command : Command) : FailsBy reasons (permit command) := by
  apply FailsBy.bind
  · exact .get_bind fun _ _ => .refuseIf fun _ => reasons.own _ trivial
  · intro _
    split
    · exact .bind (.paper _) fun _ => .pure ()
    · exact .pure ()

/-! ## Scripts -/

theorem failsBy_scriptFile (word : String) : FailsBy reasons (scriptFile word) :=
  .bind (.requiredFilename word) fun _ => .get_bind fun _ _ =>
    .bind (.lift (Reasons.cover_mapError (fun error => .file (.file error)) (fun _ => trivial) _))
      fun _ => .pure _

theorem failsBy_obeyParameter (scope : Scope) (parameter : Parameter) (rest : List String) :
    FailsBy reasons (obeyParameter scope parameter rest) := by
  apply FailsBy.bind (.obey parameter _)
  intro _
  split
  · exact .modify fun _ => rfl
  · exact .pure ()

/-- Scripts from files fail for these reasons, those that can be stopped if a stop is one of them. -/
def ScriptsFailBy (reasons : Reasons) (nested : Nested) : Prop :=
  ∀ cancellable, (cancellable = true → reasons.allows .cancelled) → ∀ source,
    FailsBy reasons (nested.load cancellable source) ∧
      FailsBy reasons (nested.compile cancellable source)

section Scripts

variable {nested : Nested} {scope : Scope} {cancellable : Bool}
  {takeBack : List String → Action Unit}

theorem failsBy_obey (scripts : ScriptsFailBy reasons nested)
    (stops : scope.cancellable = true → reasons.allows .cancelled)
    (takesBack : ∀ rest, FailsBy reasons (takeBack rest)) (command : Command)
    (rest : List String) : FailsBy reasons (obey nested scope takeBack command rest) := by
  cases command with
  | new => exact failsBy_makePaper scope rest
  | rotate =>
      exact .get_bind fun _ _ => .bind (.lift (Reasons.cover_planeFor _ _)) fun _ =>
        .bind (.lift (Reasons.cover_foldAngle _)) fun _ => failsBy_foldAlong _ _ _
  | reflect | cut =>
      exact .get_bind fun _ _ => .bind (.lift (Reasons.cover_planeFor _ _)) fun _ => failsBy_foldAlong _ _ _
  | undo => exact failsBy_undoOr (takesBack rest)
  | redo => exact .bind (failsBy_fold _ _ _) fun _ => .clearStage
  | compile =>
      exact .bind (failsBy_scriptFile _) fun (_, source) =>
        .bind (scripts scope.cancellable stops source).2 fun _ => .clearStage
  | load =>
      exact .bind (failsBy_scriptFile _) fun (_, source) =>
        .bind (scripts scope.cancellable stops source).1 fun _ =>
          .bind (.rebase scope _ rest) fun _ => .clearStage
  | reopen => exact failsBy_reopen scope rest
  | loadTexture =>
      exact .bind (.requiredFilename _) fun path => .get_bind fun session _ =>
        .bind (.lift (Reasons.cover_openTexture _ path)) fun _ => .modify fun _ => rfl
  | unloadTexture => exact .modify fun _ => rfl
  | write encoding => exact failsBy_writeDocument encoding
  | diagnose => exact .bind (.paper _) fun _ => .modify fun _ => rfl
  | elevate request => exact failsBy_elevate request

theorem failsBy_obeyToken {run : Command → List String → Action Unit}
    (stops : scope.cancellable = true → reasons.allows .cancelled)
    (fails : ∀ command rest, FailsBy reasons (run command rest)) (token : String)
    (rest : List String) : FailsBy reasons (obeyToken run scope token rest) := by
  unfold obeyToken
  split
  · exact .pure ()
  · apply FailsBy.bind
    · apply FailsBy.get_bind
      intro session _
      apply FailsBy.refuseIf
      intro stopped
      rw [Bool.and_eq_true] at stopped
      exact stops stopped.1
    · intro _
      unfold obeyWord
      split
      · apply FailsBy.bind (failsBy_permit _)
        intro _
        apply FailsBy.bind (fails _ rest)
        intro _
        split
        · exact .modify fun _ => rfl
        · exact .pure ()
      · exact failsBy_obeyParameter scope _ rest
      · exact .pure ()

theorem failsBy_dispatch {run : Command → List String → Action Unit}
    (stops : scope.cancellable = true → reasons.allows .cancelled)
    (fails : ∀ command rest, FailsBy reasons (run command rest)) (row : List String) :
    FailsBy reasons (dispatch run scope row) := by
  induction row with
  | nil => exact .pure ()
  | cons token rest induction =>
      exact .bind (failsBy_obeyToken stops fails token rest) fun _ => induction

theorem failsBy_runBody (scripts : ScriptsFailBy reasons nested)
    (stops : cancellable = true → reasons.allows .cancelled) (row : List String) :
    FailsBy reasons (runBody nested cancellable row) := by
  have refuses : FailsBy reasons (throw (.missing .undoableFold) : Action Unit) := .refuse trivial
  exact failsBy_dispatch stops (failsBy_obey scripts stops fun _ => refuses) row

theorem failsBy_atLevel {level : Level} {action : Action Unit} (fails : FailsBy reasons action) :
    FailsBy reasons (atLevel level action) := fun session allowed =>
  fails (session.withAccess level) allowed

theorem failsBy_inSandbox {action : Action Unit} (fails : FailsBy reasons action) :
    FailsBy reasons (inSandbox action) := fun session allowed =>
  ⟨(fails session.sandbox allowed).1, rfl⟩

theorem failsBy_replay (scripts : ScriptsFailBy reasons nested) :
    FailsBy reasons (replay nested) :=
  .get_bind fun _ _ => failsBy_atLevel
    (.forM fun _ => failsBy_runBody scripts (fun stops => absurd stops Bool.false_ne_true) _)

theorem failsBy_replayUndo (scripts : ScriptsFailBy reasons nested) (recording : Bool) (steps : Nat)
    (rest : List String) : FailsBy reasons (replayUndo nested recording steps rest) := by
  apply FailsBy.bind
  · exact .modify fun session =>
      congrArg Surroundings.engine (surroundings_shortening recording steps session)
  · intro _
    apply FailsBy.bind (failsBy_replay scripts)
    intro _
    exact .modify fun session =>
      congrArg Surroundings.engine (surroundings_resuming recording rest session)

theorem failsBy_attempt (scripts : ScriptsFailBy reasons nested)
    (stops : cancellable = true → reasons.allows .cancelled) (statement : String) :
    FailsBy reasons (attempt nested cancellable statement) := by
  intro session allowed
  have running : FailsBy reasons (runRecorded nested cancellable (Script.tokens statement)) :=
    failsBy_dispatch stops (failsBy_obey scripts stops (failsBy_replayUndo scripts true 1)) _
  obtain ⟨covers, kept⟩ := running (session.enter statement) allowed
  rw [on_attempt]
  refine ⟨by rwa [concluding_outcome], Eq.trans ?_ kept⟩
  revert kept
  rcases (runRecorded nested cancellable (Script.tokens statement)).on (session.enter statement) with
    ⟨_ | _, after⟩
  · exact fun _ => congrArg Surroundings.engine (surroundings_recover after)
  · exact fun _ => rfl

theorem ScriptsFailBy.inside (scripts : ScriptsFailBy reasons nested)
    (stops : cancellable = true → reasons.allows .cancelled) (source : String) :
    FailsBy reasons (atLevel .user (runBody nested cancellable (Script.tokens source))) ∧
      FailsBy reasons (inSandbox (attempt nested cancellable source)) :=
  ⟨failsBy_atLevel (failsBy_runBody scripts stops _),
    failsBy_inSandbox (failsBy_attempt scripts stops source)⟩

end Scripts

theorem scriptsFailBy_ofDepth (allowed : reasons.allows .nestedTooDeep) (depth : Nat) :
    ScriptsFailBy reasons (.ofDepth depth) := by
  induction depth with
  | zero => exact fun _ _ _ => ⟨.throw allowed, .throw allowed⟩
  | succ depth induction => exact fun _ stops source => induction.inside stops source

end Session

end PaperFolding
