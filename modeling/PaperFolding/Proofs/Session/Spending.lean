import PaperFolding.Proofs.Session.Privilege

/-!
What a run spends of the grants that the operator still has. They only become fewer, and a session gets to
another level only at the price of one, except where a script ends and the level before it comes back.
-/

namespace PaperFolding.Session

variable {α β : Type} {before after : Session}

/-- The number of requests that the operator is still going to grant. -/
def grants (session : Session) : Nat := session.world.operator.grants

/-- No grant is gained, and the level is another one only if a grant was spent. -/
structure Outlay (before after : Session) : Prop where
  fewer : after.grants ≤ before.grants
  earns : after.access = before.access ∨ after.grants < before.grants

theorem Outlay.refl (session : Session) : Outlay session session := ⟨Nat.le_refl _, .inl rfl⟩

theorem Outlay.trans {first second third : Session} (earlier : Outlay first second)
    (later : Outlay second third) : Outlay first third where
  fewer := Nat.le_trans later.fewer earlier.fewer
  earns := by
    rcases earlier.earns with same | spent
    · rcases later.earns with same' | spent
      · exact .inl (same'.trans same)
      · exact .inr (Nat.lt_of_lt_of_le spent earlier.fewer)
    · exact .inr (Nat.lt_of_le_of_lt later.fewer spent)

theorem grants_of_surroundings (same : after.surroundings = before.surroundings) :
    after.grants = before.grants :=
  congrArg (fun surroundings => surroundings.replies.count true) same

theorem outlay_of_surroundings (same : after.surroundings = before.surroundings) :
    Outlay before after :=
  ⟨Nat.le_of_eq (grants_of_surroundings same), .inl (congrArg Surroundings.access same)⟩

theorem grants_sandbox (session : Session) : session.sandbox.grants = session.grants := rfl

theorem grants_closing (sandbox session : Session) :
    (closing sandbox session).grants = sandbox.grants := rfl

theorem grants_shortening (recording : Bool) (steps : Nat) (session : Session) :
    (session.shortening recording steps).grants = session.grants :=
  grants_of_surroundings (surroundings_shortening recording steps session)

theorem grants_concluding (run : Except Fault Unit × Session) :
    (concluding run).2.grants = run.2.grants := by
  obtain ⟨_ | _, after⟩ := run
  · have kept : after.recover.surroundings.replies = after.surroundings.replies := by
      rw [surroundings_recover]
    exact congrArg (List.count true) kept
  · rfl

/-- However the action ends, it gains no grant, and for another level it has spent one. -/
def Spends (action : Action α) : Prop := ∀ session, Outlay session (action.on session).2

namespace Spends

theorem silent {action : Action α} (silent : Silent action) : Spends action := fun session =>
  outlay_of_surroundings (silent session)

theorem looking {action : Action α} (looks : Looks action) : Spends action :=
  silent (.looking looks)

theorem bind {action : Action α} {next : α → Action β} (front : Spends action)
    (others : ∀ value, Spends (next value)) : Spends (action >>= next) := by
  intro session
  have spent := front session
  rw [Action.on_bind]
  revert spent
  rcases action.on session with ⟨_ | value, after⟩
  · exact id
  · exact fun spent => spent.trans (others value after)

theorem get_bind {next : Session → Action β} (others : ∀ session, Spends (next session)) :
    Spends (get >>= next) := bind (looking fun _ => rfl) others

theorem forM {entries : List β} {action : β → Action Unit} (spends : ∀ entry, Spends (action entry)) :
    Spends (entries.forM action) := by
  induction entries with
  | nil => exact looking fun _ => rfl
  | cons entry entries induction => exact bind (spends entry) fun _ => induction

theorem outlay_of_ok {action : Action Unit} (spends : Spends action)
    (done : action.on before = (.ok (), after)) : Outlay before after := by
  have spent := spends before
  rwa [done] at spent

theorem atLevel {level : Level} {action : Action Unit} (spends : Spends action) :
    Spends (atLevel level action) := fun session =>
  ⟨(spends (session.withAccess level)).fewer, .inl rfl⟩

end Spends

/-! ## Commands -/

theorem spends_elevate (request : Elevation) : Spends (elevate request) := by
  intro session
  simp only [elevate, Action.on_modify]
  split
  · exact .refl session
  · have counted := session.world.operator.grants_confirm request
    revert counted
    rcases session.world.operator.confirm request with ⟨granted, operator⟩
    intro counted
    cases granted with
    | true => exact ⟨Nat.le_of_lt (Nat.lt_of_succ_le (Nat.le_of_eq counted)),
        .inr (Nat.lt_of_succ_le (Nat.le_of_eq counted))⟩
    | false => exact ⟨Nat.le_of_eq counted, .inl rfl⟩

theorem spends_writeDocument (encoding : Encoding) : Spends (writeDocument encoding) := by
  have writes (step : FileTree → Except Fault Unit × FileTree) : Spends (withFiles step) :=
    fun _ => ⟨Nat.le_refl _, .inl rfl⟩
  exact .bind (.silent (.requiredFilename _)) fun _ => .get_bind fun _ =>
    .bind (.silent (.refuseIf _ _)) fun _ => .bind (.silent (.refuseIf _ _)) fun _ =>
      .bind (.silent (.paper _)) fun _ => .bind (.silent (Silent.note _)) fun _ =>
        .bind (writes _) fun _ => .silent Silent.clearStage

/-- Scripts from files spend what they are granted. -/
def ScriptsSpend (nested : Nested) : Prop :=
  ∀ cancellable source, Spends (nested.load cancellable source) ∧
    Spends (nested.compile cancellable source)

section Scripts

variable {nested : Nested} {scope : Scope} {takeBack : List String → Action Unit}

theorem spends_obey (scripts : ScriptsSpend nested) (takesBack : ∀ rest, Spends (takeBack rest))
    (command : Command) (rest : List String) :
    Spends (obey nested scope takeBack command rest) := by
  by_cases outward : Outward command
  · cases outward with
    | write encoding => exact spends_writeDocument encoding
    | diagnose =>
        exact .bind (.silent (.paper _)) fun _ _ => ⟨Nat.le_refl _, .inl rfl⟩
    | elevate request => exact spends_elevate request
    | load =>
        exact .bind (.looking (looks_scriptFile _)) fun (_, source) =>
          .bind (scripts scope.cancellable source).1 fun _ =>
            .bind (.silent (Silent.rebase scope _ rest)) fun _ => .silent Silent.clearStage
    | compile =>
        exact .bind (.looking (looks_scriptFile _)) fun (_, source) =>
          .bind (scripts scope.cancellable source).2 fun _ => .silent Silent.clearStage
    | undo =>
        apply Spends.get_bind
        intro session
        refine .bind ?_ fun _ => .silent Silent.clearStage
        split
        · exact .silent (silent_fold _ _ _)
        · exact takesBack rest
  · exact .silent (silent_obey outward rest)

theorem spends_obeyToken {run : Command → List String → Action Unit}
    (spends : ∀ command rest, Spends (run command rest)) (token : String) (rest : List String) :
    Spends (obeyToken run scope token rest) := by
  unfold obeyToken
  split
  · exact .looking fun _ => rfl
  · apply Spends.bind (.looking (looks_checkpoint scope))
    intro _
    unfold obeyWord
    split
    · apply Spends.bind (.looking (looks_permit _))
      intro _
      apply Spends.bind (spends _ rest)
      intro _
      split
      · exact .silent (.modify fun _ => rfl)
      · exact .looking fun _ => rfl
    · apply Spends.bind (.silent (Silent.obey _ _))
      intro _
      split
      · exact .silent (.modify fun _ => rfl)
      · exact .looking fun _ => rfl
    · exact .looking fun _ => rfl

theorem spends_dispatch {run : Command → List String → Action Unit}
    (spends : ∀ command rest, Spends (run command rest)) (row : List String) :
    Spends (dispatch run scope row) := by
  induction row with
  | nil => exact .looking fun _ => rfl
  | cons token rest induction =>
      exact .bind (spends_obeyToken spends token rest) fun _ => induction

theorem spends_runBody (scripts : ScriptsSpend nested) (cancellable : Bool) (row : List String) :
    Spends (runBody nested cancellable row) :=
  spends_dispatch (spends_obey scripts fun _ => .looking fun _ => rfl) row

theorem spends_replayUndo (scripts : ScriptsSpend nested) (recording : Bool) (steps : Nat)
    (rest : List String) : Spends (replayUndo nested recording steps rest) := by
  apply Spends.bind (.silent (.modify (surroundings_shortening recording steps)))
  intro _
  apply Spends.bind
  · exact .get_bind fun _ => .atLevel (.forM fun _ => spends_runBody scripts false _)
  · intro _
    exact .silent (.modify (surroundings_resuming recording rest))

theorem spends_runRecorded (scripts : ScriptsSpend nested) (cancellable : Bool)
    (row : List String) : Spends (runRecorded nested cancellable row) :=
  spends_dispatch (spends_obey scripts (spends_replayUndo scripts true 1)) row

/-- A statement that fails is put back to its level, but what it was granted is spent. -/
theorem grants_attempt (scripts : ScriptsSpend nested) (cancellable : Bool) (statement : String)
    (session : Session) :
    ((attempt nested cancellable statement).on session).2.grants ≤ session.grants := by
  rw [on_attempt, grants_concluding]
  exact (spends_runRecorded scripts cancellable _ (session.enter statement)).fewer

end Scripts

theorem scriptsSpend_ofDepth (depth : Nat) : ScriptsSpend (.ofDepth depth) := by
  induction depth with
  | zero => exact fun _ _ => ⟨.looking fun _ => rfl, .looking fun _ => rfl⟩
  | succ depth induction =>
      intro cancellable source
      rw [Nested.load_ofDepth, Nested.compile_ofDepth]
      constructor
      · exact .atLevel (spends_runBody induction cancellable _)
      · intro session
        rw [on_inSandbox]
        refine ⟨?_, .inl rfl⟩
        rw [grants_closing, ← grants_sandbox session]
        exact grants_attempt induction cancellable source session.sandbox

end PaperFolding.Session
