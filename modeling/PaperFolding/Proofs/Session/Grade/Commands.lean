import PaperFolding.Proofs.Session.Grade.Basic

/-!
Commands and parameters in sessions of a grade. All of them keep to it, but for the command that opens an
archive, which does so if the archive is of the grade.
-/

namespace PaperFolding

/-! ## Colors that are set -/

namespace Parameter

theorem packed_of_colorOf {parameter : Parameter} {argument : String} {tint : Color}
    (reads : parameter.colorOf argument = .ok (.color tint)) : ∃ number, tint = .ofPacked number := by
  obtain ⟨numbers, -, reads⟩ := ok_of_bind reads
  match numbers, reads with
  | [packed], rfl => exact ⟨packed, rfl⟩
  | [_, _, _], rfl => exact ⟨_, rfl⟩

/-- A color is set by its number or by its channels, and in both cases packed. -/
theorem packed_of_setting {parameter : Parameter} {placing : Placing} {arguments : List String}
    {tint : Color} (reads : parameter.setting placing arguments = .ok (.color tint)) :
    ∃ number, tint = .ofPacked number := by
  have fits := gives_of_setting reads
  cases parameter <;> cases fits
  match arguments, reads with
  | [argument], reads => exact packed_of_colorOf reads

end Parameter

/-! ## Archives that are opened -/

structure Deed.Opens (deed : Deed) (archive : Archive) : Prop where
  reopens : deed.command = .reopen
  opens : ∃ path, deed.session.filename = some path ∧
    deed.session.engine.openArchive deed.session.world.files path = .ok archive

/-- Nothing is opened but what is admitted. -/
def Deed.Within (admitted : Archive → Prop) (deed : Deed) : Prop :=
  ∀ archive, deed.Opens archive → admitted archive

theorem Deed.Within.mono {admitted admitted' : Archive → Prop} {deed : Deed}
    (within : deed.Within admitted) (weaker : ∀ archive, admitted archive → admitted' archive) :
    deed.Within admitted' := fun archive opens => weaker archive (within archive opens)

namespace Session

variable {grade : Grade} {session : Session} {scope : Scope}

theorem Provides.obey (parameter : Parameter) (arguments : List String) :
    Upholds grade (parameter.obey arguments) := by
  intro session graded
  refine ⟨?_, fun _ _ => trivial⟩
  rw [Parameter.on_obey]
  cases reads : parameter.setting session.placing arguments with
  | error fault => exact graded
  | ok setting =>
      cases setting with
      | color tint =>
          obtain ⟨number, rfl⟩ := Parameter.packed_of_setting reads
          exact graded.withColor (grade.packed number)
      | uncolor => exact graded.withColor graded.reset
      | _ => exact graded

theorem upholds_obeyParameter (scope : Scope) (parameter : Parameter) (rest : List String) :
    Upholds grade (obeyParameter scope parameter rest) := by
  refine .bind (.obey parameter _) fun _ _ => ?_
  split
  · exact .preserving (.modify fun _ => rfl)
  · exact .looking fun _ => rfl

/-! ## Folding -/

theorem upholds_restriction (word : String) (plane : Plane) :
    Upholds grade (restriction word plane) := by
  refine .bind .get fun session _ => ?_
  split
  · exact .looking fun _ => rfl
  · refine .bind (.operate word fun _ => rfl) fun _ _ => ?_
    rw [← bind_pure_comp]
    refine .bind (.preserving fun session => ?_) fun _ _ => .looking fun _ => rfl
    rw [on_regionAt]
    cases session.model <;> rfl

theorem upholds_foldAlong (word : String) (plane : Plane) {operation : Operation}
    (other : operation ≠ .crease) : Upholds grade (foldAlong word plane operation) :=
  .bind (upholds_restriction word plane) fun _ _ =>
    .bind (.operate word fun creases => absurd creases other) fun _ _ => .clearStage

theorem upholds_rotate : Upholds grade rotate :=
  .bind .get fun _ _ => .bind (.looking (looks_lift _)) fun plane _ =>
    .bind (.looking (looks_lift _)) fun _ _ => upholds_foldAlong _ plane nofun

theorem upholds_reflect : Upholds grade reflect :=
  .bind .get fun _ _ => .bind (.looking (looks_lift _)) fun plane _ => upholds_foldAlong _ plane nofun

theorem upholds_cut : Upholds grade cut :=
  .bind .get fun _ _ => .bind (.looking (looks_lift _)) fun plane _ => upholds_foldAlong _ plane nofun

/-! ## New paper -/

theorem provides_stagedSheet (stage : Stage) :
    Provides grade (fun sheet => grade.paper sheet.1) (stagedSheet stage) := by
  unfold stagedSheet
  split
  · refine .bind (.note _) fun _ _ => .bind .get fun _ graded => .pure ?_
    exact graded.engine.preset _
  · refine .bind (.note _) fun _ _ => .bind .get fun session graded => ?_
    have lifted : Provides grade grade.paper
        (lift ((session.engine.fromCorners stage.corners).mapError Fault.unbuildable)) := by
      refine .lift fun ledger made => ?_
      cases corners : session.engine.fromCorners stage.corners with
      | error cause =>
          rw [corners] at made
          cases made
      | ok other =>
          rw [corners] at made
          cases made
          exact graded.engine.corners corners
    exact .bind lifted fun _ good => .pure good

theorem upholds_makePaper (scope : Scope) (rest : List String) :
    Upholds grade (makePaper scope rest) :=
  .bind .get fun session _ => .bind (.looking (looks_refuseIf _ _)) fun _ _ =>
    .bind (provides_stagedSheet session.stage) fun _ good => .bind (.replacePaper good) fun _ _ =>
      .bind (.rebase scope _ rest) fun _ _ => .clearStage

/-! ## Other commands -/

theorem graded_reopen (graded : session.Graded grade)
    (within : Deed.Within grade.Admits ⟨.reopen, session⟩) (scope : Scope) (rest : List String) :
    ((reopen scope rest).on session).2.Graded grade := by
  cases named : session.filename with
  | none =>
      refine graded_looking (fun session => by rw [on_requiredFilename]) graded fun path reads => ?_
      rw [on_requiredFilename, named] at reads
      cases reads
  | some path =>
      rw [on_reopen named]
      cases opens : session.engine.openArchive session.world.files path with
      | error fault => exact graded
      | ok archive =>
          have admits := within archive ⟨rfl, path, named, opens⟩
          have legible := graded.engine.opens opens
          have tint : grade.color (archive.color.getD session.settings.resetColor) := by
            cases tinted : archive.color with
            | none => exact graded.reset
            | some color => exact admits.color legible color tinted
          have noted : (session.noting (.archive path)).Graded grade := graded
          have replaced := (noted.withColor tint).replacing (admits.paper legible)
          exact (Provides.rebase scope (fileConstruction .reopen path) rest).graded replaced

theorem holdings_loadTexture : Preserves holdings loadTexture :=
  .bind (.requiredFilename _) fun _ => .get_bind fun _ => .bind (.lift _) fun _ =>
    .modify fun _ => rfl

theorem holdings_writeDocument (encoding : Encoding) : Preserves holdings (writeDocument encoding) :=
  .bind (.requiredFilename _) fun _ => .get_bind fun _ => .bind (.refuseIf _ _) fun _ =>
    .bind (.refuseIf _ _) fun _ => .bind (.paper _) fun _ => .bind (.modify fun _ => rfl) fun _ =>
      .bind (fun _ => rfl) fun _ => .modify fun _ => rfl

theorem holdings_diagnose : Preserves holdings diagnose :=
  .bind (.paper _) fun _ => .modify fun _ => rfl

theorem holdings_elevate (request : Elevation) : Preserves holdings (elevate request) := by
  refine .modify fun session => ?_
  split
  · rfl
  · rfl

theorem graded_undoOr {otherwise : Action Unit} (graded : session.Graded grade)
    (bare : session.depth.getD 0 = 0 → (otherwise.on session).2.Graded grade) :
    ((undoOr otherwise).on session).2.Graded grade := by
  refine graded_looking (fun _ => rfl) graded fun _ got => ?_
  cases got
  refine graded_bind ?_ fun _ _ _ after => Provides.clearStage.graded after
  split
  · exact (Provides.undoSheet _).graded graded
  · rename_i unready
    exact bare (Nat.eq_zero_of_not_pos unready)

/-- Commands that run no scripts. -/
theorem graded_obey_own {nested : Nested} {takeBack : List String → Action Unit} {deed : Deed}
    (graded : deed.session.Graded grade) (within : deed.Within grade.Admits)
    (loads : deed.command ≠ .load) (compiles : deed.command ≠ .compile) (rest : List String)
    (bare : deed.StartsOver → ((takeBack rest).on deed.session).2.Graded grade) :
    ((obey nested scope takeBack deed.command rest).on deed.session).2.Graded grade := by
  obtain ⟨command, session⟩ := deed
  cases command with
  | new => exact (upholds_makePaper scope rest).graded graded
  | rotate => exact upholds_rotate.graded graded
  | reflect => exact upholds_reflect.graded graded
  | cut => exact upholds_cut.graded graded
  | undo => exact graded_undoOr graded fun unready => bare ⟨rfl, unready⟩
  | redo => exact (Provides.bind (.redoSheet _) fun _ _ => .clearStage).graded graded
  | compile => exact absurd rfl compiles
  | load => exact absurd rfl loads
  | reopen => exact graded_reopen graded within scope rest
  | loadTexture => exact graded.of_eq (holdings_loadTexture session)
  | unloadTexture => exact graded
  | write encoding => exact graded.of_eq (holdings_writeDocument encoding session)
  | diagnose => exact graded.of_eq (holdings_diagnose session)
  | elevate request => exact graded.of_eq (holdings_elevate request session)

end Session

end PaperFolding
