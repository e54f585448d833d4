import PaperFolding.Proofs.Session.Surroundings

/-!
What parameters set of the appearance, and what a statement notes of it. No command touches any of it by
itself, but for the color of a document that is opened; a script that is loaded may set it, but notes nothing.
-/

namespace PaperFolding

namespace Session

variable {α : Type} {nested : Nested} {scope : Scope} {takeBack : List String → Action Unit}
  {command : Command}

/-! ## Single commands -/

theorem scene_writeDocument (encoding : Encoding) : Preserves scene (writeDocument encoding) :=
  .bind (.requiredFilename _) fun _ => .get_bind fun _ => .bind (.refuseIf _ _) fun _ =>
    .bind (.refuseIf _ _) fun _ => .bind (.paper _) fun _ => .bind (Still.note _).scene fun _ =>
      .bind (fun _ => rfl) fun _ => Still.clearStage.scene

theorem scene_diagnose : Preserves scene diagnose :=
  .bind (.paper _) fun _ => .modify fun _ => rfl

theorem scene_elevate (request : Elevation) : Preserves scene (elevate request) := by
  refine .modify fun session => ?_
  split
  · rfl
  · rfl

theorem scene_undoOr {otherwise : Action Unit} (preserves : Preserves scene otherwise) :
    Preserves scene (undoOr otherwise) := by
  refine .get_bind fun session => .bind ?_ fun _ => Still.clearStage.scene
  split
  · exact (still_fold _ _ _).scene
  · exact preserves

theorem scene_scriptFile (word : String) : Preserves scene (scriptFile word) :=
  .looking (looks_scriptFile word)

theorem scene_obey (loads : command ≠ .load) (opens : command ≠ .reopen)
    (compiles : ∀ cancellable source, Preserves scene (nested.compile cancellable source))
    (takesBack : command = .undo → ∀ rest, Preserves scene (takeBack rest)) (rest : List String) :
    Preserves scene (obey nested scope takeBack command rest) := by
  by_cases outward : Outward command
  · cases outward with
    | write encoding => exact scene_writeDocument encoding
    | diagnose => exact scene_diagnose
    | elevate request => exact scene_elevate request
    | load => exact absurd rfl loads
    | compile =>
        exact .bind (scene_scriptFile _) fun (_, source) =>
          .bind (compiles scope.cancellable source) fun _ => Still.clearStage.scene
    | undo => exact scene_undoOr (takesBack rfl rest)
  · exact (still_obey outward opens rest).scene

theorem outlook_obey (loads : command ≠ .load)
    (compiles : ∀ cancellable source, Preserves scene (nested.compile cancellable source))
    (takesBack : command = .undo → ∀ rest, Preserves scene (takeBack rest)) (rest : List String) :
    Preserves outlook (obey nested scope takeBack command rest) := by
  by_cases opens : command = .reopen
  · subst opens
    exact outlook_reopen scope rest
  · exact (scene_obey loads opens compiles takesBack rest).toOutlook

theorem scene_compile_ofDepth (depth : Nat) (cancellable : Bool) (source : String) :
    Preserves scene ((Nested.ofDepth depth).compile cancellable source) := by
  cases depth with
  | zero => exact .throw _
  | succ depth =>
      intro session
      rw [Nested.compile_ofDepth, on_inSandbox]
      rfl

/-! ## Scripts -/

/-- What a script that is loaded leaves alone. -/
def groundwork (session : Session) : Settings × List String :=
  (session.settings, session.draft.lead)

theorem Preserves.groundwork {action : Action α} (preserves : Preserves outlook action) :
    Preserves groundwork action :=
  fun session => congrArg (fun outlook => (outlook.settings, outlook.lead)) (preserves session)

theorem groundwork_obeyCommand {run : Command → List String → Action Unit} {rest : List String}
    (preserves : Preserves groundwork (run command rest)) :
    Preserves groundwork (obeyCommand run scope command rest) := by
  refine .bind (.looking (looks_permit command)) fun _ => .bind preserves fun _ => ?_
  split
  · exact .modify fun _ => rfl
  · exact .pure ()

theorem groundwork_obey_parameter (parameter : Parameter) (arguments : List String) :
    Preserves groundwork (parameter.obey arguments) := by
  refine .get_bind fun _ => .bind (.lift _) fun setting => .modify fun session => ?_
  cases setting <;> rfl

theorem groundwork_dispatch {run : Command → List String → Action Unit}
    (unrecorded : scope.recording = false)
    (preserves : ∀ command rest, Preserves groundwork (run command rest)) (row : List String) :
    Preserves groundwork (dispatch run scope row) := by
  induction row with
  | nil => exact .pure ()
  | cons token rest induction =>
      refine .bind ?_ fun _ => induction
      unfold obeyToken
      split
      · exact .pure ()
      · refine .bind (.looking (looks_checkpoint scope)) fun _ => ?_
        unfold obeyWord
        split
        · exact groundwork_obeyCommand (preserves _ rest)
        · refine .bind (groundwork_obey_parameter _ _) fun _ => ?_
          rw [unrecorded, Bool.false_and, if_neg Bool.false_ne_true]
          exact .pure ()
        · exact .pure ()

theorem groundwork_obey (loads : ∀ cancellable source,
      Preserves groundwork (nested.load cancellable source))
    (compiles : ∀ cancellable source, Preserves scene (nested.compile cancellable source))
    (takesBack : command = .undo → ∀ rest, Preserves scene (takeBack rest)) (rest : List String) :
    Preserves groundwork (obey nested scope takeBack command rest) := by
  by_cases other : command = .load
  · subst other
    exact .bind (scene_scriptFile _).toOutlook.groundwork fun (_, source) =>
      .bind (loads scope.cancellable source) fun _ =>
        .bind (Still.rebase scope _ rest).outlook.groundwork fun _ =>
          Still.clearStage.outlook.groundwork
  · exact (outlook_obey other compiles takesBack rest).groundwork

theorem groundwork_load_ofDepth (depth : Nat) (cancellable : Bool) (source : String) :
    Preserves groundwork ((Nested.ofDepth depth).load cancellable source) := by
  induction depth generalizing cancellable source with
  | zero => exact .throw _
  | succ depth induction =>
      have body : Preserves groundwork
          (runBody (.ofDepth depth) cancellable (Script.tokens source)) :=
        groundwork_dispatch rfl (fun _ rest =>
          groundwork_obey induction (scene_compile_ofDepth depth) (fun _ _ => .throw _) rest) _
      intro session
      have leveled (reached : Session) :
          groundwork (reached.withAccess session.access) = groundwork reached := rfl
      rw [Nested.load_ofDepth, on_atLevel]
      exact (leveled _).trans (body (session.withAccess .user))

end Session

end PaperFolding
