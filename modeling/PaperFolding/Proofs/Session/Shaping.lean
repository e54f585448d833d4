import PaperFolding.Proofs.Session.Holding

/-!
Scripts that make, fold and undo, obeyed in two plain sessions. What the one does by undoing with its
engine alone, the other does as well, whatever it would do where the engine can undo nothing.
-/

namespace PaperFolding

open Script

namespace Session

def shapingCommands : List Command := .undo :: foldingCommands

def OnlyShapes (row : List String) : Prop :=
  ∀ word ∈ row, ∀ command, Keyword.ofWord? word = some (.command command) →
    command ∈ shapingCommands

instance (row : List String) : Decidable (OnlyShapes row) :=
  decidable_of_iff (∀ word ∈ row, (Keyword.ofWord? word).all fun
      | .command command => decide (command ∈ shapingCommands)
      | .parameter _ => true) <| by
    constructor
    · intro shapes word among command found
      simpa [found] using shapes word among
    · intro shapes word among
      cases found : Keyword.ofWord? word with
      | none => rfl
      | some keyword =>
          cases keyword with
          | command command => simpa using shapes word among command found
          | parameter parameter => rfl

theorem OnlyShapes.append {front back : List String} (shapes : OnlyShapes front)
    (shapes' : OnlyShapes back) : OnlyShapes (front ++ back) := by
  intro word among
  rcases List.mem_append.1 among with inside | inside
  · exact shapes word inside
  · exact shapes' word inside

section Making

variable {scope : Scope} {rest : List String} {ledger : Ledger} {session : Session}

theorem making_engine : (session.making scope rest ledger).engine = session.engine := by
  unfold making rebasing
  split <;> rfl

theorem making_history (idle : scope.recording = false) :
    (session.making scope rest ledger).history = session.history := by
  unfold making rebasing
  rw [if_neg (by rw [idle]; exact Bool.false_ne_true)]
  rfl

end Making

/-- A plain session that another one has come to without touching the history. -/
structure Reshaped (before after : Session) : Prop where
  ordinary : Ordinary after
  plain : after.engine = .plain
  history : after.history = before.history
  present : before.model.isSome → after.model.isSome

theorem Reshaped.trans {first second third : Session} (earlier : Reshaped first second)
    (later : Reshaped second third) : Reshaped first third where
  ordinary := later.ordinary
  plain := later.plain
  history := later.history.trans earlier.history
  present held := later.present (earlier.present held)

/-- Two plain sessions with the same sheet and the same stage. -/
structure Twins (first second : Session) : Prop where
  alike : Alike Eq first second
  plain : first.engine = .plain
  plain' : second.engine = .plain

section Steps

variable {nested nested' : Nested} {scope scope' : Scope} {takeBack : List String → Action Unit}
  {fault : Fault} {token : String} {rest row : List String} {session first second after : Session}

theorem foldAlong_present {word : String} {plane : Plane} {operation : Operation}
    (done : (foldAlong word plane operation).on session = (.ok (), after)) :
    after.model.isSome = true := by
  obtain ⟨_, restricted, -, done⟩ := ok_of_bind done
  obtain ⟨_, operated, operates, clears⟩ := ok_of_bind done
  cases clears
  rw [operate, on_fold] at operates
  cases held : restricted.model with
  | none =>
      rw [held] at operates
      cases operates
  | some ledger =>
      simp only [held] at operates
      split at operates
      · cases operates
      · cases operates
        rfl

theorem frame_of_folding (ordinary : Ordinary session)
    (folds : ∀ command, Keyword.ofWord? token = some (.command command) →
      command ∈ foldingCommands)
    (done : (obeyToken (obey nested scope takeBack) scope token rest).on session =
      (.ok (), after)) :
    after.engine = session.engine ∧
      (scope.recording = false → after.history = session.history) ∧
      (session.model.isSome → after.model.isSome) := by
  rcases obeyToken_cases done with ⟨rfl, -⟩ | ⟨parameter, setting, found, reads, ends⟩ |
    ⟨command, reached, found, obeyed, ends⟩
  · exact ⟨rfl, fun _ => rfl, id⟩
  · obtain ⟨beside, -⟩ := beside_setting ends
    exact ⟨beside.engine, fun _ => beside.history, by rw [beside.model]; exact id⟩
  · obtain ⟨beside, -⟩ := beside_applied ends
    rcases List.mem_cons.1 (folds command found) with rfl | plainly
    · obtain ⟨-, ledger, -, rfl⟩ := making_of_ok ordinary obeyed
      refine ⟨beside.engine.trans making_engine,
        fun idle => beside.history.trans (making_history idle), fun _ => ?_⟩
      rw [beside.model, making_model]
      rfl
    · obtain ⟨plane, operation, along⟩ := foldAlong_of_obey plainly obeyed
      obtain ⟨untold, -⟩ := foldAlong_frame along
      refine ⟨beside.engine.trans untold.engine, fun _ => beside.history.trans untold.history,
        fun _ => ?_⟩
      rw [beside.model]
      exact foldAlong_present along

theorem present_of_command {run : Command → List String → Action Unit} {command : Command}
    (needs : command.needsPaper = true)
    (done : (obeyToken run scope command.name rest).on session = (.ok (), after)) :
    session.model.isSome = true := by
  rw [obeyToken_command_eq] at done
  obtain ⟨_, checked, check, done⟩ := ok_of_bind done
  obtain rfl := (looks_checkpoint scope).eq check
  obtain ⟨_, permitted, permit, -⟩ := ok_of_bind done
  cases held : session.model with
  | some ledger => rfl
  | none =>
      have objects : objection? command session ≠ none := by
        rw [objection?, needs, held]
        split <;> simp
      rw [on_permit] at permit
      split at permit
      · cases permit
      · rename_i free
        exact absurd free objects

/-- An `undo` is done by the engine if there is a record, and else by the other way to take back. -/
theorem undo_cases (plain : session.engine = .plain)
    (done : (obeyToken (obey nested scope takeBack) scope Command.undo.name rest).on session =
      (.ok (), after)) :
    ∃ ledger, session.model = some ledger ∧
      (0 < ledger.depth ∧ after = session.undone ledger ∨ ledger.depth = 0 ∧
        ∃ reached, (takeBack rest).on session = (.ok (), reached) ∧
          after = { reached with stage := .empty }) := by
  obtain ⟨ledger, held⟩ := Option.isSome_iff_exists.1 (present_of_command rfl done)
  refine ⟨ledger, held, ?_⟩
  have depth : session.depth.getD 0 = ledger.depth := by
    rw [Session.depth, held, plain]
    rfl
  obtain ⟨reached, undoes, ends⟩ := obeyToken_command done
  obtain rfl : after = reached := by
    rw [ends]
    simp
  obtain ⟨_, _, got, undoes⟩ := ok_of_bind undoes
  cases got
  dsimp only at undoes
  rw [depth] at undoes
  by_cases ready : 0 < ledger.depth
  · rw [if_pos ready, on_bind_of_ok (on_undoSheet plain held ready)] at undoes
    exact .inl ⟨ready, (congrArg Prod.snd undoes).symm⟩
  · rw [if_neg ready] at undoes
    obtain ⟨_, taken, takes, clears⟩ := ok_of_bind undoes
    exact .inr ⟨Nat.eq_zero_of_not_pos ready, taken, takes, (congrArg Prod.snd clears).symm⟩

theorem undone_of_undo (plain : session.engine = .plain)
    (done : (obeyToken (obey nested scope fun _ => throw fault) scope Command.undo.name rest).on
      session = (.ok (), after)) :
    ∃ ledger, session.model = some ledger ∧ 0 < ledger.depth ∧ after = session.undone ledger := by
  obtain ⟨ledger, held, ⟨more, ends⟩ | ⟨-, reached, thrown, -⟩⟩ := undo_cases plain done
  · exact ⟨ledger, held, more, ends⟩
  · cases thrown

theorem folds_of_other (other : token ≠ Command.undo.name)
    (shapes : ∀ command, Keyword.ofWord? token = some (.command command) →
      command ∈ shapingCommands) :
    ∀ command, Keyword.ofWord? token = some (.command command) → command ∈ foldingCommands := by
  intro command found
  refine (List.mem_cons.1 (shapes command found)).resolve_left fun same => other ?_
  subst same
  exact (Keyword.name_of_ofWord? found).symm

theorem reshaped_of_obeyToken (ordinary : Ordinary session) (plain : session.engine = .plain)
    (idle : scope.recording = false)
    (shapes : ∀ command, Keyword.ofWord? token = some (.command command) →
      command ∈ shapingCommands)
    (done : (obeyToken (obey nested scope fun _ => throw fault) scope token rest).on session =
      (.ok (), after)) : Reshaped session after := by
  by_cases undoes : token = Command.undo.name
  · subst undoes
    obtain ⟨ledger, held, more, rfl⟩ := undone_of_undo plain done
    exact ⟨(ordinary.noting .undo).same rfl rfl, plain, rfl, fun _ => rfl⟩
  · have folds := folds_of_other undoes shapes
    obtain ⟨engine, history, present⟩ := frame_of_folding ordinary folds done
    exact ⟨ordinary.obeyToken folds done, engine.trans plain, history idle, present⟩

theorem reshaped_of_dispatch (ordinary : Ordinary session) (plain : session.engine = .plain)
    (idle : scope.recording = false) (shapes : OnlyShapes row)
    (done : (dispatch (obey nested scope fun _ => throw fault) scope row).on session =
      (.ok (), after)) : Reshaped session after := by
  induction row generalizing session with
  | nil =>
      cases done
      exact ⟨ordinary, plain, rfl, id⟩
  | cons token rest induction =>
      obtain ⟨here, later⟩ := List.forall_mem_cons.1 shapes
      obtain ⟨_, reached, obeyed, others⟩ := ok_of_bind done
      have step := reshaped_of_obeyToken ordinary plain idle here obeyed
      exact step.trans (induction step.ordinary step.plain later others)

theorem Twins.undone (twins : Twins first second) {ledger : Ledger}
    (held : first.model = some ledger) (more : 0 < ledger.depth) :
    ∃ ledger', second.model = some ledger' ∧ 0 < ledger'.depth ∧
      Twins (first.undone ledger) (second.undone ledger') := by
  obtain ⟨ledger', held', same⟩ := twins.alike.held held
  obtain ⟨outline, journal⟩ := Prod.mk.inj same
  have depth : ledger'.depth = ledger.depth := by rw [Ledger.depth, Ledger.depth, journal]
  refine ⟨ledger', held', depth ▸ more, ⟨?_, ?_, rfl, ?_⟩, twins.plain, twins.plain'⟩
  · exact (twins.alike.ordinary.noting .undo).same rfl rfl
  · exact (twins.alike.ordinary'.noting .undo).same rfl rfl
  · show some (ledger.windTo (ledger.depth - 1)).content =
      some (ledger'.windTo (ledger'.depth - 1)).content
    rw [ledger.windTo_content (Nat.sub_le _ _), ledger'.windTo_content (Nat.sub_le _ _), outline,
      journal, depth]

theorem Twins.obeyToken (twins : Twins first second)
    (shapes : ∀ command, Keyword.ofWord? token = some (.command command) →
      command ∈ shapingCommands)
    (done : (obeyToken (obey nested scope fun _ => throw fault) scope token rest).on first =
      (.ok (), after)) :
    ∃ after', (Session.obeyToken (obey nested' scope' takeBack) scope' token rest).on second =
        (.ok (), after') ∧ Twins after after' := by
  by_cases undoes : token = Command.undo.name
  · subst undoes
    obtain ⟨ledger, held, more, rfl⟩ := undone_of_undo twins.plain done
    obtain ⟨ledger', held', more', next⟩ := twins.undone held more
    exact ⟨_, on_obeyToken_undo_of_depth twins.alike.ordinary'.unstopped twins.plain' held' more'
      nested' scope' takeBack rest, next⟩
  · have folds := folds_of_other undoes shapes
    obtain ⟨after', done', alike⟩ := twins.alike.obeyToken folds () after done
    exact ⟨after', done', alike,
      (frame_of_folding twins.alike.ordinary folds done).1.trans twins.plain,
      (frame_of_folding twins.alike.ordinary' folds done').1.trans twins.plain'⟩

/-- What one session does by undoing with the engine alone, its twin does in any scope. -/
theorem Twins.dispatch (twins : Twins first second) (shapes : OnlyShapes row)
    (done : (dispatch (obey nested scope fun _ => throw fault) scope row).on first =
      (.ok (), after)) :
    ∃ after', (Session.dispatch (obey nested' scope' takeBack) scope' row).on second =
        (.ok (), after') ∧ Twins after after' := by
  induction row generalizing first second with
  | nil =>
      cases done
      exact ⟨second, rfl, twins⟩
  | cons token rest induction =>
      obtain ⟨here, later⟩ := List.forall_mem_cons.1 shapes
      obtain ⟨_, reached, obeyed, others⟩ := ok_of_bind done
      obtain ⟨reached', obeyed', next⟩ := twins.obeyToken here obeyed
      obtain ⟨after', others', last⟩ := induction next later others
      exact ⟨after', (on_bind_of_ok obeyed').trans others', last⟩

end Steps

end Session

end PaperFolding
