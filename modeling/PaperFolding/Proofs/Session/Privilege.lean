import PaperFolding.Proofs.Session.Deeds
import PaperFolding.Proofs.Session.Rollback
import PaperFolding.Proofs.Session.Surroundings

/-!
How the level of a session changes. Scripts that are run go back to the level before, whatever they are
granted; a statement raises it to the highest level it is granted itself, and only if it succeeds.
-/

namespace PaperFolding

open Script

namespace Level

theorem max_of_le {a b : Level} (le : a ≤ b) : max a b = b := if_pos le

end Level

/-- The level that a deed asks for, if the session is below it and the operator grants it. -/
def Deed.granted? (deed : Deed) : Option Level :=
  match deed.command with
  | .elevate request =>
      if request.level ≤ deed.session.access then none
      else if (deed.session.world.operator.confirm request).1 then some request.level
      else none
  | _ => none

namespace Session

/-- The levels that the operator grants to commands of the statement itself, one after the other. -/
def granted (session : Session) (statement : String) : List Level :=
  (session.deeds statement).filterMap Deed.granted?

variable {run : Command → List String → Action Unit} {nested : Nested} {scope : Scope}
  {takeBack : List String → Action Unit} {token : String} {rest row : List String}
  {session after : Session}

/-! ## Scripts that are run -/

theorem access_atLevel (level : Level) (action : Action Unit) :
    Preserves access (atLevel level action) := fun _ => rfl

theorem access_load_ofDepth (depth : Nat) (cancellable : Bool) (source : String) :
    Preserves access ((Nested.ofDepth depth).load cancellable source) := by
  cases depth with
  | zero => exact .throw _
  | succ depth =>
      rw [Nested.load_ofDepth]
      exact access_atLevel .user _

theorem access_compile_ofDepth (depth : Nat) (cancellable : Bool) (source : String) :
    Preserves access ((Nested.ofDepth depth).compile cancellable source) := by
  cases depth with
  | zero => exact .throw _
  | succ depth =>
      intro session
      rw [Nested.compile_ofDepth, on_inSandbox]
      rfl

theorem access_replay (nested : Nested) : Preserves access (replay nested) :=
  .get_bind fun _ => access_atLevel .dev _

theorem access_replayUndo (nested : Nested) (recording : Bool) (steps : Nat) (rest : List String) :
    Preserves access (replayUndo nested recording steps rest) :=
  .bind (Silent.access (.modify (surroundings_shortening recording steps))) fun _ =>
    .bind (access_replay nested) fun _ =>
      Silent.access (.modify (surroundings_resuming recording rest))

/-! ## Commands -/

theorem access_undoOr {otherwise : Action Unit} (preserves : Preserves access otherwise) :
    Preserves access (undoOr otherwise) := by
  refine .get_bind fun session => .bind ?_ fun _ => Silent.clearStage.access
  split
  · exact (silent_fold _ _ _).access
  · exact preserves

theorem access_writeDocument (encoding : Encoding) : Preserves access (writeDocument encoding) :=
  .bind (.requiredFilename _) fun _ => .get_bind fun _ => .bind (.refuseIf _ _) fun _ =>
    .bind (.refuseIf _ _) fun _ => .bind (.paper _) fun _ => .bind (Silent.note _).access fun _ =>
      .bind (fun _ => rfl) fun _ => Silent.clearStage.access

theorem access_obey {depth : Nat} {command : Command} (other : ∀ request, command ≠ .elevate request)
    (takesBack : ∀ rest, Preserves access (takeBack rest)) (rest : List String) :
    Preserves access (obey (.ofDepth depth) scope takeBack command rest) := by
  by_cases outward : Outward command
  · cases outward with
    | write encoding => exact access_writeDocument encoding
    | diagnose => exact .bind (.paper _) fun _ => .modify fun _ => rfl
    | elevate request => exact absurd rfl (other request)
    | load =>
        exact .bind (.looking (looks_scriptFile _)) fun (_, source) =>
          .bind (access_load_ofDepth depth _ source) fun _ =>
            .bind (Silent.rebase _ _ _).access fun _ => Silent.clearStage.access
    | compile =>
        exact .bind (.looking (looks_scriptFile _)) fun (_, source) =>
          .bind (access_compile_ofDepth depth _ source) fun _ => Silent.clearStage.access
    | undo => exact access_undoOr (takesBack rest)
  · exact (silent_obey outward rest).access

theorem access_of_elevate (request : Elevation) (session : Session) :
    ((elevate request).on session).2.access =
      ((Deed.granted? ⟨.elevate request, session⟩).toList).foldl max session.access := by
  simp only [elevate, Action.on_modify, Deed.granted?]
  by_cases low : request.level ≤ session.access
  · rw [if_pos low, if_pos low]
    rfl
  · rw [if_neg low, if_neg low]
    have raises : max session.access request.level = request.level :=
      Level.max_of_le (Nat.le_of_lt ((Level.not_le _ _).1 low))
    cases granted : (session.world.operator.confirm request).1 with
    | true => exact raises.symm
    | false => rfl

/-! ## Statements -/

theorem granted?_eq_none {deed : Deed} (other : ∀ request, deed.command ≠ .elevate request) :
    deed.granted? = none := by
  obtain ⟨command, session⟩ := deed
  cases command with
  | elevate request => exact absurd rfl (other request)
  | _ => rfl

theorem access_of_command {depth : Nat} {command : Command} {reached : Session}
    (takesBack : ∀ rest, Preserves access (takeBack rest))
    (done : (obey (.ofDepth depth) scope takeBack command rest).on session = (.ok (), reached)) :
    reached.access =
      ((Deed.granted? ⟨command, session⟩).toList).foldl max session.access := by
  by_cases elevates : ∃ request, command = .elevate request
  · obtain ⟨request, rfl⟩ := elevates
    have raised := access_of_elevate request session
    have done : (elevate request).on session = (.ok (), reached) := done
    rwa [done] at raised
  · have other : ∀ request, command ≠ .elevate request := fun request same =>
      elevates ⟨request, same⟩
    have preserves : Preserves access (obey (.ofDepth depth) scope takeBack command rest) :=
      access_obey other takesBack rest
    have same := preserves session
    rw [done] at same
    rw [granted?_eq_none other]
    exact same

theorem access_of_obeyToken {depth : Nat} (takesBack : ∀ rest, Preserves access (takeBack rest))
    (done : (obeyToken (obey (.ofDepth depth) scope takeBack) scope token rest).on session =
      (.ok (), after)) :
    after.access =
      ((deed? scope token session).toList.filterMap Deed.granted?).foldl max session.access := by
  rcases deed?_cases done with ⟨idle, -, same⟩ | ⟨command, reached, does, obeyed, -, same⟩
  · rw [idle]
    exact congrArg Surroundings.access same
  · have raised := access_of_command takesBack obeyed
    have same : after.access = reached.access := congrArg Surroundings.access same
    rw [same, raised, does, Option.toList_some, List.filterMap_cons]
    cases Deed.granted? ⟨command, session⟩ <;> rfl

theorem access_of_dispatch {depth : Nat} (takesBack : ∀ rest, Preserves access (takeBack rest))
    (done : (dispatch (obey (.ofDepth depth) scope takeBack) scope row).on session =
      (.ok (), after)) :
    after.access =
      ((deedsAlong (obey (.ofDepth depth) scope takeBack) scope row session).filterMap
        Deed.granted?).foldl max session.access := by
  induction row generalizing session with
  | nil =>
      cases done
      rfl
  | cons token rest induction =>
      obtain ⟨_, reached, obeyed, others⟩ := ok_of_bind done
      rw [deedsAlong_of_ok obeyed, List.filterMap_append, List.foldl_append,
        ← access_of_obeyToken takesBack obeyed]
      exact induction others

theorem access_of_success {statement : String} (done : session.failure statement = none) :
    (session.executed statement).access =
      (session.granted statement).foldl max session.access := by
  obtain ⟨after, runs, settled⟩ := running_of_success done
  have raised := access_of_dispatch (fun rest => access_replayUndo _ true 1 rest) runs
  rw [settled]
  exact raised

theorem access_of_failure {statement : String} {fault : Fault}
    (failed : session.failure statement = some fault) :
    (session.executed statement).access = session.access := by
  rw [executed_rollback failed]
  rfl

/-- After a statement the session is at the highest of its level before and the levels that the operator
granted to the statement itself, or at its level before if the statement failed. What is granted inside
of a script that is loaded or compiled, or of entries that are done again, is over when they end; and a
statement that is executed at another level, supervised or not, never leaves that level behind. -/
theorem executed_access (session : Session) (statement : String) :
    ((session.executed statement).access =
        if session.failure statement = none then
          (session.granted statement).foldl max session.access
        else session.access) ∧
      (∀ depth cancellable source before,
        (((Nested.ofDepth depth).load cancellable source).on before).2.access = before.access ∧
        (((Nested.ofDepth depth).compile cancellable source).on before).2.access = before.access ∧
        ((replay (.ofDepth depth)).on before).2.access = before.access) ∧
      ∀ level,
        ((atLevel level (execute statement)).on session).2.access = session.access ∧
        ((atLevel level (executeSupervised statement)).on session).2.access = session.access := by
  refine ⟨?_, fun depth cancellable source before => ⟨?_, ?_, ?_⟩, fun level => ⟨?_, ?_⟩⟩
  · split
    · rename_i done
      exact access_of_success done
    · rename_i failed
      obtain ⟨fault, failed⟩ := Option.ne_none_iff_exists'.1 failed
      exact access_of_failure failed
  · exact access_load_ofDepth depth cancellable source before
  · exact access_compile_ofDepth depth cancellable source before
  · exact access_replay _ before
  · exact access_atLevel level _ session
  · exact access_atLevel level _ session

/-- The operator of this session grants one request. -/
def yielding : Session := ofSettings .standard .plain (.quiet (.empty []) ⟨[true], []⟩)

theorem executed_access_yielding :
    (yielding.executed "debug color [1] root").access = .dev ∧
      (yielding.executed "debug cut").access = .user := by
  rw [(executed_access yielding "debug color [1] root").1,
    (executed_access yielding "debug cut").1]
  decide +kernel

end Session

end PaperFolding
