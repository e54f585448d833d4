import PaperFolding.Proofs.Session.Conduct.Basic

/-!
What one token can do that is obeyed with success, and what folds leave alone.
-/

namespace PaperFolding

open Script

theorem Parameter.isFragment_name (parameter : Parameter) : isFragment parameter.name = false := by
  cases parameter <;> decide

theorem Command.isFragment_name (command : Command) : isFragment command.name = false := by
  cases command with
  | write encoding => cases encoding <;> decide
  | elevate request => cases request <;> decide
  | _ => decide

namespace Session

variable {α β : Type}

theorem ok_of_bind {action : Action α} {next : α → Action β} {session after : Session} {value : β}
    (done : (action >>= next).on session = (.ok value, after)) :
    ∃ middle reached, action.on session = (.ok middle, reached) ∧
      (next middle).on reached = (.ok value, after) := by
  rw [Action.on_bind] at done
  revert done
  rcases action.on session with ⟨_ | middle, reached⟩
  · intro done
    cases done
  · exact fun done => ⟨middle, reached, rfl, done⟩

theorem on_bind_of_ok {action : Action α} {next : α → Action β} {session reached : Session}
    {middle : α} (done : action.on session = (.ok middle, reached)) :
    (action >>= next).on session = (next middle).on reached := by
  rw [Action.on_bind, done]

theorem eq_of_modify_if {condition : Prop} [Decidable condition] {change : Session → Session}
    {session after : Session}
    (done : (if condition then modify change else pure () : Action Unit).on session =
      (.ok (), after)) : after = if condition then change session else session := by
  split at done
  · rename_i holds
    cases done
    rw [if_pos holds]
  · rename_i fails
    cases done
    rw [if_neg fails]

section Obeyed

variable {run : Command → List String → Action Unit} {scope : Scope} {rest : List String}
  {session after : Session}

theorem obeyToken_command_eq (command : Command) :
    obeyToken run scope command.name rest =
      (checkpoint scope >>= fun _ => obeyCommand run scope command rest) := by
  rw [obeyToken, command.isFragment_name, if_neg Bool.false_ne_true, obeyWord,
    command.ofWord?_name]

theorem obeyToken_parameter_eq (parameter : Parameter) :
    obeyToken run scope parameter.name rest =
      (checkpoint scope >>= fun _ => obeyParameter scope parameter rest) := by
  rw [obeyToken, parameter.isFragment_name, if_neg Bool.false_ne_true, obeyWord,
    parameter.ofWord?_name]

theorem obeyCommand_of_ok {command : Command}
    (done : (obeyCommand run scope command rest).on session = (.ok (), after)) :
    ∃ reached, (run command rest).on session = (.ok (), reached) ∧
      after = if scope.recording && command ≠ .undo then reached.applying else reached := by
  obtain ⟨_, permitted, permit, done⟩ := ok_of_bind done
  obtain rfl := (looks_permit command).eq permit
  obtain ⟨_, reached, obeyed, done⟩ := ok_of_bind done
  exact ⟨reached, obeyed, eq_of_modify_if done⟩

theorem obeyParameter_of_ok {parameter : Parameter}
    (done : (obeyParameter scope parameter rest).on session = (.ok (), after)) :
    ∃ setting, parameter.setting session.placing ((taken rest).map argument) = .ok setting ∧
      after = if scope.recording && parameter.isAppearance then
          (setting.apply session).remembering parameter.name (taken rest)
        else setting.apply session := by
  obtain ⟨_, reached, obeyed, done⟩ := ok_of_bind done
  rw [Parameter.on_obey] at obeyed
  cases reads : parameter.setting session.placing ((taken rest).map argument) with
  | error fault =>
      rw [reads] at obeyed
      cases obeyed
  | ok setting =>
      rw [reads] at obeyed
      cases obeyed
      exact ⟨setting, rfl, eq_of_modify_if done⟩

theorem obeyToken_cases {token : String}
    (done : (obeyToken run scope token rest).on session = (.ok (), after)) :
    (after = session ∧ (isFragment token ∨ Keyword.ofWord? token = none)) ∨
      (∃ parameter setting, Keyword.ofWord? token = some (.parameter parameter) ∧
        parameter.setting session.placing ((taken rest).map argument) = .ok setting ∧
        after = if scope.recording && parameter.isAppearance then
            (setting.apply session).remembering parameter.name (taken rest)
          else setting.apply session) ∨
      ∃ command reached, Keyword.ofWord? token = some (.command command) ∧
        (run command rest).on session = (.ok (), reached) ∧
        after = if scope.recording && command ≠ .undo then reached.applying else reached := by
  unfold obeyToken at done
  split at done
  · rename_i fragment
    cases done
    exact .inl ⟨rfl, .inl fragment⟩
  · obtain ⟨_, checked, check, done⟩ := ok_of_bind done
    obtain rfl := (looks_checkpoint scope).eq check
    unfold obeyWord at done
    split at done
    · rename_i command found
      obtain ⟨reached, obeyed, ends⟩ := obeyCommand_of_ok done
      exact .inr (.inr ⟨command, reached, found, obeyed, ends⟩)
    · rename_i parameter found
      obtain ⟨setting, reads, ends⟩ := obeyParameter_of_ok done
      exact .inr (.inl ⟨parameter, setting, found, reads, ends⟩)
    · rename_i unknown
      cases done
      exact .inl ⟨rfl, .inr unknown⟩

theorem obeyToken_command {command : Command}
    (done : (obeyToken run scope command.name rest).on session = (.ok (), after)) :
    ∃ reached, (run command rest).on session = (.ok (), reached) ∧
      after = if scope.recording && command ≠ .undo then reached.applying else reached := by
  rw [obeyToken_command_eq] at done
  obtain ⟨_, checked, check, done⟩ := ok_of_bind done
  obtain rfl := (looks_checkpoint scope).eq check
  exact obeyCommand_of_ok done

theorem obeyToken_parameter {parameter : Parameter}
    (done : (obeyToken run scope parameter.name rest).on session = (.ok (), after)) :
    ∃ setting, parameter.setting session.placing ((taken rest).map argument) = .ok setting ∧
      after = if scope.recording && parameter.isAppearance then
          (setting.apply session).remembering parameter.name (taken rest)
        else setting.apply session := by
  rw [obeyToken_parameter_eq] at done
  obtain ⟨_, checked, check, done⟩ := ok_of_bind done
  obtain rfl := (looks_checkpoint scope).eq check
  exact obeyParameter_of_ok done

end Obeyed

theorem beside_applied {condition : Prop} [Decidable condition] {reached after : Session}
    (ends : after = if condition then reached.applying else reached) :
    Beside reached after ∧ after.stage = reached.stage ∧ after.draft.lead = reached.draft.lead := by
  rw [ends]
  split <;> exact ⟨⟨rfl, rfl, rfl, rfl, rfl, rfl⟩, rfl, rfl⟩

theorem beside_setting {parameter : Parameter} {setting : Setting} {words : List String}
    {session after : Session} {condition : Prop} [Decidable condition]
    (ends : after = if condition then (setting.apply session).remembering parameter.name words
      else setting.apply session) :
    Beside session after ∧ after.stage = setting.onStage session.stage := by
  obtain ⟨engine, transaction, history, model, watch, inHistory⟩ := beside_apply setting session
  rw [ends, ← setting.stage_apply]
  split <;> exact ⟨⟨engine, transaction, history, model, watch, inHistory⟩, rfl⟩

/-! ## Folds -/

def plainFolds : List Command := [.rotate, .reflect, .cut]

def foldingCommands : List Command := .new :: plainFolds

theorem access_of_folding {command : Command} (folds : command ∈ foldingCommands) :
    command.access = .user := by
  simp only [foldingCommands, plainFolds, List.mem_cons, List.not_mem_nil, or_false] at folds
  rcases folds with rfl | rfl | rfl | rfl <;> rfl

def OnlyFolds (row : List String) : Prop :=
  ∀ word ∈ row, ∀ command, Keyword.ofWord? word = some (.command command) →
    command ∈ foldingCommands

instance (row : List String) : Decidable (OnlyFolds row) :=
  decidable_of_iff (∀ word ∈ row, (Keyword.ofWord? word).all fun
      | .command command => decide (command ∈ foldingCommands)
      | .parameter _ => true) <| by
    constructor
    · intro folds word among command found
      simpa [found] using folds word among
    · intro folds word among
      cases found : Keyword.ofWord? word with
      | none => rfl
      | some keyword =>
          cases keyword with
          | command command => simpa using folds word among command found
          | parameter parameter => rfl

structure Untold (before after : Session) : Prop where
  engine : after.engine = before.engine
  history : after.history = before.history
  draft : after.draft = before.draft

theorem Untold.trans {first second third : Session} (earlier : Untold first second)
    (later : Untold second third) : Untold first third where
  engine := later.engine.trans earlier.engine
  history := later.history.trans earlier.history
  draft := later.draft.trans earlier.draft

theorem fold_frame {word : String} {call : Call} {step : Engine → Ledger → Except Refusal Ledger}
    {session after : Session} (done : (fold word call step).on session = (.ok (), after)) :
    Untold session after := by
  rw [on_fold] at done
  cases held : session.model with
  | none =>
      rw [held] at done
      cases done
  | some ledger =>
      simp only [held] at done
      cases folds : step session.engine ledger with
      | error refusal =>
          rw [folds] at done
          cases done
      | ok folded =>
          rw [folds] at done
          cases done
          exact ⟨rfl, rfl, rfl⟩

theorem regionAt_frame {word : String} {point : Planar} {region : UInt64} {session after : Session}
    (done : (regionAt word point).on session = (.ok region, after)) : Untold session after := by
  rw [on_regionAt] at done
  split at done
  · cases done
  · obtain rfl := congrArg Prod.snd done
    exact ⟨rfl, rfl, rfl⟩

theorem restriction_frame {word : String} {plane : Plane} {region : Option UInt64}
    {session after : Session} (done : (restriction word plane).on session = (.ok region, after)) :
    Untold session after := by
  obtain ⟨_, _, got, done⟩ := ok_of_bind done
  cases got
  split at done
  · cases done
    exact ⟨rfl, rfl, rfl⟩
  · rename_i target _
    obtain ⟨_, creased, crease, done⟩ := ok_of_bind done
    have creasing := fold_frame crease
    rw [Action.on_map] at done
    cases lies : ((regionAt word target).on creased).1 with
    | error fault =>
        rw [lies] at done
        cases done
    | ok found =>
        have locating := regionAt_frame (Prod.ext lies rfl)
        obtain rfl := congrArg Prod.snd done
        exact creasing.trans locating

theorem foldAlong_frame {word : String} {plane : Plane} {operation : Operation}
    {session after : Session}
    (done : (foldAlong word plane operation).on session = (.ok (), after)) :
    Untold session after ∧ after.stage = .empty := by
  obtain ⟨_, restricted, restrict, done⟩ := ok_of_bind done
  obtain ⟨_, operated, operate, done⟩ := ok_of_bind done
  obtain ⟨engine, history, draft⟩ := (restriction_frame restrict).trans (fold_frame operate)
  cases done
  exact ⟨⟨engine, history, draft⟩, rfl⟩

/-- All that a fold reads of the stage before it folds is its plane and its angle. -/
theorem foldAlong_of_obey {nested : Nested} {scope : Scope} {takeBack : List String → Action Unit}
    {command : Command} {rest : List String} {session after : Session}
    (folds : command ∈ plainFolds)
    (done : (obey nested scope takeBack command rest).on session = (.ok (), after)) :
    ∃ plane operation, (foldAlong command.name plane operation).on session = (.ok (), after) := by
  simp only [plainFolds, List.mem_cons, List.not_mem_nil, or_false] at folds
  rcases folds with rfl | rfl | rfl
  · obtain ⟨_, _, got, done⟩ := ok_of_bind done
    cases got
    obtain ⟨_, _, plane, done⟩ := ok_of_bind done
    obtain ⟨_, _, angle, done⟩ := ok_of_bind done
    obtain rfl := (looks_lift _).eq plane
    obtain rfl := (looks_lift _).eq angle
    exact ⟨_, _, done⟩
  all_goals
    obtain ⟨_, _, got, done⟩ := ok_of_bind done
    cases got
    obtain ⟨_, _, plane, done⟩ := ok_of_bind done
    obtain rfl := (looks_lift _).eq plane
    exact ⟨_, _, done⟩

theorem obey_frame {nested : Nested} {scope : Scope} {takeBack : List String → Action Unit}
    {command : Command} {rest : List String} {session after : Session}
    (folds : command ∈ plainFolds)
    (done : (obey nested scope takeBack command rest).on session = (.ok (), after)) :
    Untold session after ∧ after.stage = .empty := by
  obtain ⟨plane, operation, done⟩ := foldAlong_of_obey folds done
  exact foldAlong_frame done

end Session

end PaperFolding
