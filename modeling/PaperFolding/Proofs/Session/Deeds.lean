import PaperFolding.Proofs.Session.Execution
import PaperFolding.Proofs.Session.Surroundings
import PaperFolding.Proofs.Session.Token

/-!
What is done while a statement is executed: the commands that are carried out, each with the session it
finds. Those that stand in the statement itself are told apart from those inside of the scripts it runs.
-/

namespace PaperFolding

open Script

/-- A command that has been permitted and is carried out. -/
structure Deed where
  command : Command
  session : Session

namespace Deed

/-- The engine is not ready to undo, so undoing means to do the history again. -/
def StartsOver (deed : Deed) : Prop := deed.command = .undo ∧ deed.session.depth.getD 0 = 0

instance (deed : Deed) : Decidable deed.StartsOver := inferInstanceAs (Decidable (_ ∧ _))

/-- The entries that are done again by a statement that starts over. -/
def redone (deed : Deed) : List String :=
  if deed.StartsOver then (deed.session.shortening true 1).history else []

/-- A document is written where there is something already. -/
def overwrites (deed : Deed) : Bool :=
  match deed.command, deed.session.filename with
  | .write _, some path => deed.session.world.files.has path
  | _, _ => false

end Deed

namespace Session

/-! ## Deeds in a script itself -/

def deed? (scope : Scope) (token : String) (session : Session) : Option Deed :=
  match Keyword.ofWord? token with
  | some (.command command) =>
      let begun := do
        checkpoint scope
        permit command
      match (begun.on session).1 with
      | .ok () => some ⟨command, session⟩
      | .error _ => none
  | _ => none

def deedsAlong (run : Command → List String → Action Unit) (scope : Scope) :
    List String → Session → List Deed
  | [], _ => []
  | token :: rest, session =>
      (deed? scope token session).toList ++
        match (obeyToken run scope token rest).on session with
        | (.ok (), after) => deedsAlong run scope rest after
        | (.error _, _) => []

def bodyDeeds (nested : Nested) (cancellable : Bool) (row : List String) (session : Session) :
    List Deed :=
  let scope : Scope := ⟨false, cancellable⟩
  deedsAlong (obey nested scope fun _ => throw (.missing .undoableFold)) scope row session

def recordedDeeds (nested : Nested) (cancellable : Bool) (row : List String) (session : Session) :
    List Deed :=
  let scope : Scope := ⟨true, cancellable⟩
  deedsAlong (obey nested scope (replayUndo nested true 1)) scope row session

/-- What the statement does itself, by the commands among its own tokens. -/
def deeds (session : Session) (statement : String) : List Deed :=
  recordedDeeds (.ofDepth session.nestingBound) true (tokens statement) (session.enter statement)

/-! ## Deeds inside of other scripts -/

def entryDeeds (nested : Nested) (inside : Deed → List Deed) : List String → Session → List Deed
  | [], _ => []
  | entry :: entries, session =>
      let own := bodyDeeds nested false (tokens entry) session
      own ++ own.flatMap inside ++
        match (runBody nested false (tokens entry)).on session with
        | (.ok (), after) => entryDeeds nested inside entries after
        | (.error _, _) => []

def replayDeeds (nested : Nested) (inside : Deed → List Deed) (deed : Deed) : List Deed :=
  entryDeeds nested inside deed.redone ((deed.session.shortening true 1).withAccess .dev)

/-- What is done inside of the scripts from files that a deed runs, at any depth. -/
def scriptDeeds : Nat → Bool → Deed → List Deed
  | 0, _, _ => []
  | depth + 1, cancellable, deed =>
      let nested := Nested.ofDepth depth
      match deed.command with
      | .load =>
          match (scriptFile Command.load.name).on deed.session with
          | (.ok (_, source), _) =>
              let own :=
                bodyDeeds nested cancellable (tokens source) (deed.session.withAccess .user)
              own ++ own.flatMap (scriptDeeds depth cancellable)
          | (.error _, _) => []
      | .compile =>
          match (scriptFile Command.compile.name).on deed.session with
          | (.ok (_, source), _) =>
              let own :=
                recordedDeeds nested cancellable (tokens source)
                  (deed.session.sandbox.enter source)
              own ++ own.flatMap fun inner =>
                replayDeeds nested (scriptDeeds depth false) inner ++
                  scriptDeeds depth cancellable inner
          | (.error _, _) => []
      | _ => []

/-- What is done by the entries of the history that a statement does again. -/
def redoneDeeds (session : Session) (statement : String) : List Deed :=
  (session.deeds statement).flatMap (replayDeeds (.ofDepth session.nestingBound) fun _ => [])

/-- What is done in the course of a statement but not by the statement itself: in scripts that are
loaded or compiled, and in entries of the history that are done again. -/
def nestedDeeds (session : Session) (statement : String) : List Deed :=
  let bound := session.nestingBound
  (session.deeds statement).flatMap fun deed =>
    replayDeeds (.ofDepth bound) (scriptDeeds bound false) deed ++ scriptDeeds bound true deed

/-! ## What is known of a deed -/

variable {run : Command → List String → Action Unit} {scope : Scope} {token : String}
  {rest row : List String} {session after : Session} {deed : Deed}

theorem on_begun (command : Command) :
    (do
      checkpoint scope
      permit command : Action Unit).on session =
      (if scope.cancellable && session.world.watch.stopped then .error .cancelled
        else ((permit command).on session).1, session) := by
  rw [Action.on_bind, on_checkpoint]
  cases stopped : scope.cancellable && session.world.watch.stopped with
  | true => rfl
  | false =>
      show (permit command).on session = _
      exact Prod.ext rfl (looks_permit command session)

theorem deed?_eq_some (among : deed? scope token session = some deed) :
    deed.session = session ∧ Keyword.ofWord? token = some (.command deed.command) ∧
      ((permit deed.command).on session).1 = .ok () := by
  unfold deed? at among
  split at among
  · rename_i command found
    simp only [on_begun] at among
    split at among
    · rename_i begun
      cases among
      refine ⟨rfl, found, ?_⟩
      split at begun
      · cases begun
      · exact begun
    · cases among
  · cases among

theorem deed?_of_permit {command : Command}
    (found : Keyword.ofWord? token = some (.command command))
    (checked : (checkpoint scope).on session = (.ok (), session))
    (granted : (permit command).on session = (.ok (), session)) :
    deed? scope token session = some ⟨command, session⟩ := by
  simp only [deed?, found, on_bind_of_ok checked, granted]

/-- A command that succeeds has been carried out. -/
theorem deed?_of_ok {command : Command} (found : Keyword.ofWord? token = some (.command command))
    (done : (obeyToken run scope token rest).on session = (.ok (), after)) :
    deed? scope token session = some ⟨command, session⟩ := by
  obtain rfl : command.name = token := Keyword.name_of_ofWord? found
  rw [obeyToken_command_eq] at done
  obtain ⟨_, checked, check, done⟩ := ok_of_bind done
  obtain rfl := (looks_checkpoint scope).eq check
  obtain ⟨_, permitted, granted, -⟩ := ok_of_bind done
  obtain rfl := (looks_permit command).eq granted
  exact deed?_of_permit found check granted

theorem deed?_eq_none (idle : isFragment token ∨ ∀ command, Keyword.ofWord? token ≠
    some (.command command)) : deed? scope token session = none := by
  cases known : deed? scope token session with
  | none => rfl
  | some deed =>
      have found := (deed?_eq_some known).2.1
      rcases idle with fragment | unread
      · obtain rfl : deed.command.name = token := Keyword.name_of_ofWord? found
        rw [deed.command.isFragment_name] at fragment
        cases fragment
      · exact absurd found (unread deed.command)

/-- A token that succeeds is a command that is carried out, or does not go beyond what is set. -/
theorem deed?_cases (done : (obeyToken run scope token rest).on session = (.ok (), after)) :
    (deed? scope token session = none ∧ Beside session after ∧
      after.surroundings = session.surroundings) ∨
    ∃ command reached, deed? scope token session = some ⟨command, session⟩ ∧
      (run command rest).on session = (.ok (), reached) ∧ Beside reached after ∧
      after.surroundings = reached.surroundings := by
  rcases obeyToken_cases done with ⟨rfl, idle⟩ | ⟨parameter, setting, found, -, ends⟩ |
    ⟨command, reached, found, obeyed, ends⟩
  · refine .inl ⟨deed?_eq_none (idle.imp_right fun unknown command => ?_), .refl after, rfl⟩
    rw [unknown]
    exact nofun
  · have unread : ∀ command, Keyword.ofWord? token ≠ some (.command command) := by
      rw [found]
      exact nofun
    have same : after.surroundings = (setting.apply session).surroundings := by
      rw [ends]
      split <;> rfl
    exact .inl ⟨deed?_eq_none (.inr unread), (beside_setting ends).1,
      same.trans (surroundings_apply setting session)⟩
  · have same : after.surroundings = reached.surroundings := by
      rw [ends]
      split <;> rfl
    exact .inr ⟨command, reached, deed?_of_ok found done, obeyed, (beside_applied ends).1, same⟩

theorem deedsAlong_of_ok
    (done : (obeyToken run scope token rest).on session = (.ok (), after)) :
    deedsAlong run scope (token :: rest) session =
      (deed? scope token session).toList ++ deedsAlong run scope rest after := by
  rw [deedsAlong, done]

theorem mem_deedsAlong (among : deed ∈ deedsAlong run scope (token :: rest) session) :
    deed? scope token session = some deed ∨
      ∃ after, (obeyToken run scope token rest).on session = (.ok (), after) ∧
        deed ∈ deedsAlong run scope rest after := by
  rw [deedsAlong] at among
  rcases List.mem_append.1 among with here | later
  · exact .inl (by simpa using here)
  · split at later
    · rename_i after done
      exact .inr ⟨after, done, later⟩
    · cases later

/-- What every token keeps that is obeyed with success holds at every deed, and each deed is a command
of the row that the session permits. -/
theorem forall_deedsAlong (holds : Session → Prop)
    (step : ∀ {token rest session after}, holds session →
      (obeyToken run scope token rest).on session = (.ok (), after) → holds after)
    (start : holds session) (among : deed ∈ deedsAlong run scope row session) :
    holds deed.session ∧ (∃ token ∈ row, Keyword.ofWord? token = some (.command deed.command)) ∧
      ((permit deed.command).on deed.session).1 = .ok () := by
  induction row generalizing session with
  | nil => cases among
  | cons token rest induction =>
      rcases mem_deedsAlong among with here | ⟨after, done, later⟩
      · obtain ⟨same, found, permitted⟩ := deed?_eq_some here
        rw [same]
        exact ⟨start, ⟨token, List.mem_cons_self .., found⟩, permitted⟩
      · obtain ⟨holding, ⟨other, inside, found⟩, permitted⟩ := induction (step start done) later
        exact ⟨holding, ⟨other, List.mem_cons_of_mem token inside, found⟩, permitted⟩

theorem entryDeeds_of_ok {nested : Nested} {inside : Deed → List Deed} {entry : String}
    {entries : List String}
    (done : (runBody nested false (tokens entry)).on session = (.ok (), after)) :
    entryDeeds nested inside (entry :: entries) session =
      bodyDeeds nested false (tokens entry) session ++
        (bodyDeeds nested false (tokens entry) session).flatMap inside ++
          entryDeeds nested inside entries after := by
  rw [entryDeeds, done]

theorem known_of_mem (among : deed ∈ deedsAlong run scope row session) :
    (∃ token ∈ row, Keyword.ofWord? token = some (.command deed.command)) ∧
      ((permit deed.command).on deed.session).1 = .ok () :=
  (forall_deedsAlong (fun _ => True) (fun _ _ => trivial) trivial among).2

theorem access_of_permit {command : Command} (permitted : ((permit command).on session).1 = .ok ()) :
    command.access ≤ session.access := by
  rw [on_permit, objection?] at permitted
  by_cases low : session.access < command.access
  · rw [if_pos low] at permitted
    cases permitted
  · exact Nat.le_of_not_lt low

end Session

end PaperFolding
