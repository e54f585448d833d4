import PaperFolding.Proofs.Script.Naming
import PaperFolding.Proofs.Session.Execution
import PaperFolding.Proofs.Session.Rebuilding

/-!
A statement that names a script and loads it. It comes to what the script comes to that is run in its place,
at the lowest level.
-/

namespace PaperFolding

open Script

namespace Session

/-- Tokens that name a script and load it. -/
structure Loads (statement group : String) : Prop where
  reads : tokens statement = [Parameter.filename.name, group, Command.load.name]
  fragment : isFragment group = true
  named : argument group ≠ ""

def loadOf (path : String) : String := "filename [" ++ path ++ "] " ++ Command.load.name

theorem exists_loads {path : String} (nameable : Nameable path) :
    ∃ group, Loads (loadOf path) group ∧ argument group = path := by
  have plain : Plain Command.load.name.toList ∧ Command.load.name.toList ≠ [] := by decide
  obtain ⟨group, fragment, named, reads⟩ := nameable.tokens_eq plain.1 plain.2
  exact ⟨group, ⟨reads, fragment, named ▸ nameable.inhabited⟩, named⟩

/-- A fresh session that may load scripts. -/
def rooted (settings : Settings) (files : FileTree) (operator : Operator) : Session :=
  (ofSettings settings .plain (.quiet files operator)).withAccess .root

/-- The session of a running statement that has named a file. -/
def naming (statement group : String) (session : Session) : Session :=
  { session.enter statement with filename := some (argument group) }.remembering
    Parameter.filename.name [group]

/-- The session in which the script runs that a statement loads. -/
def opening (statement group : String) (session : Session) : Session :=
  (session.naming statement group).withAccess .user

/-- How the script ends that a statement loads. -/
def loading (statement group source : String) (session : Session) : Except Fault Unit × Session :=
  (runBody (.ofDepth session.world.operator.grants) true (tokens source)).on
    (session.opening statement group)

section Loads

variable {run : Command → List String → Action Unit} {scope : Scope} {rest : List String}
  {statement group source : String} {session : Session}

theorem on_obeyToken_fragment (fragment : isFragment group = true) :
    (obeyToken run scope group rest).on session = (.ok (), session) := by
  rw [obeyToken, if_pos fragment]
  rfl

theorem Loads.on_filename (loads : Loads statement group)
    (unstopped : session.world.watch.stopped = false) (recording : scope.recording = true) :
    (obeyToken run scope Parameter.filename.name [group, Command.load.name]).on
        (session.enter statement) = (.ok (), session.naming statement group) := by
  have unknown := isKnown_of_fragment loads.fragment
  have known : isKnown Command.load.name = true := by decide +kernel
  have takes : taken [group, Command.load.name] = [group] := by
    simp [taken, unknown, known]
  have inhabited : (argument group).isEmpty = false := by
    rw [Bool.eq_false_iff, ne_eq, String.isEmpty_iff]
    exact loads.named
  have reads : Parameter.filename.setting (session.enter statement).placing
      (([group]).map argument) = .ok (.filename (argument group)) := by
    rw [List.map_singleton, Parameter.setting, inhabited, if_neg Bool.false_ne_true]
    rfl
  have obeyed : (Parameter.filename.obey (([group]).map argument)).on (session.enter statement) =
      (.ok (), (Setting.filename (argument group)).apply (session.enter statement)) := by
    rw [Parameter.on_obey, reads]
  have remembers : (scope.recording && Parameter.filename.isAppearance) = true := by
    rw [recording]
    rfl
  have entered : (session.enter statement).world.watch.stopped = false := unstopped
  rw [obeyToken_parameter_eq, on_bind_of_ok (on_checkpoint_of_unstopped entered scope),
    obeyParameter, takes, on_bind_of_ok obeyed, if_pos remembers]
  rfl

theorem rebasing_model (scope : Scope) (construction : String) (rest : List String)
    (session : Session) : (session.rebasing scope construction rest).model = session.model := by
  unfold rebasing
  split <;> rfl

theorem on_obeyToken_load {nested : Nested} {takeBack : List String → Action Unit}
    (rooted : Level.root ≤ session.access) (unstopped : session.world.watch.stopped = false) :
    (obeyToken (obey nested scope takeBack) scope Command.load.name rest).on session =
      (load nested scope rest >>= fun _ =>
        if scope.recording && Command.load ≠ .undo then modify applying else pure ()).on session := by
  have granted : (permit .load).on session = (.ok (), session) := on_permit_of_ready rooted rfl
  rw [obeyToken_command_eq, on_bind_of_ok (on_checkpoint_of_unstopped unstopped scope), obeyCommand,
    on_bind_of_ok granted]
  rfl

theorem on_scriptFile_of_read {word path : String} (named : session.filename = some path)
    (read : session.world.files.readText path = .ok source) :
    (scriptFile word).on session = (.ok (path, source), session) := by
  rw [on_scriptFile, named]
  simp only [read]

theorem on_load_of_error {nested : Nested} {fault : Fault}
    (missing : (scriptFile Command.load.name).on session = (.error fault, session)) :
    (load nested scope rest).on session = (.error fault, session) := by
  rw [load, Action.on_bind, missing]

/-- Loading a script ends as the script does, with the paper that it leaves. -/
theorem on_load_of_opened {nested : Nested} {path : String} {result : Except Fault Unit}
    {after : Session} (scope : Scope) (rest : List String)
    (opened : (scriptFile Command.load.name).on session = (.ok (path, source), session))
    (runs : (nested.load scope.cancellable source).on session = (result, after)) :
    ∃ ended, (load nested scope rest).on session = (result, ended) ∧
      ended.model = after.model := by
  rw [load, on_bind_of_ok opened]
  cases result with
  | error fault =>
      rw [Action.on_bind, runs]
      exact ⟨after, rfl, rfl⟩
  | ok _ =>
      rw [on_bind_of_ok runs]
      exact ⟨_, rfl, rebasing_model _ _ _ _⟩

/-- What a statement comes to that loads a script is decided by its last token. -/
theorem Loads.running_eq (loads : Loads statement group)
    (unstopped : session.world.watch.stopped = false) :
    session.running statement =
      (obeyToken (obey (.ofDepth session.nestingBound) ⟨true, true⟩
          (replayUndo (.ofDepth session.nestingBound) true 1)) ⟨true, true⟩
        Command.load.name []).on (session.naming statement group) := by
  rw [running, runRecorded, loads.reads]
  rw [dispatch, on_bind_of_ok (loads.on_filename unstopped rfl), dispatch,
    on_bind_of_ok (on_obeyToken_fragment loads.fragment), dispatch, Action.on_bind]
  split
  · rename_i done
    rw [done]
    rfl
  · rename_i failed
    rw [failed]

/-- A script that cannot be read fails the statement. -/
theorem Loads.failure_of_error (loads : Loads statement group)
    (rooted : Level.root ≤ session.access) (unstopped : session.world.watch.stopped = false)
    {error : FileError} (missing : session.world.files.readText (argument group) = .error error) :
    session.failure statement = some (.file (.file error)) := by
  have opened : (scriptFile Command.load.name).on (session.naming statement group) =
      (.error (.file (.file error)), session.naming statement group) := by
    rw [on_scriptFile]
    simp only [naming, remembering, enter, missing]
  have high : Level.root ≤ (session.naming statement group).access := rooted
  have named : (session.naming statement group).world.watch.stopped = false := unstopped
  rw [failure_eq, loads.running_eq unstopped, on_obeyToken_load high named, Action.on_bind,
    on_load_of_error opened]
  rfl

/-- A statement that loads a script ends as the script does, with the paper that it leaves. -/
theorem Loads.of_loading (loads : Loads statement group) (rooted : Level.root ≤ session.access)
    (unstopped : session.world.watch.stopped = false)
    (found : session.world.files.readText (argument group) = .ok source) :
    session.failure statement = faultOf (session.loading statement group source).1 ∧
      (session.failure statement = none →
        (session.executed statement).model = (session.loading statement group source).2.model) := by
  have opened : (scriptFile Command.load.name).on (session.naming statement group) =
      (.ok (argument group, source), session.naming statement group) :=
    on_scriptFile_of_read rfl found
  have runs : ((Nested.ofDepth session.nestingBound).load true source).on
      (session.naming statement group) =
      ((session.loading statement group source).1,
        (session.loading statement group source).2.withAccess session.access) := by
    rw [nestingBound, Nested.load_ofDepth, on_atLevel]
    rfl
  obtain ⟨ended, ends, model⟩ := on_load_of_opened ⟨true, true⟩ [] opened runs
  have high : Level.root ≤ (session.naming statement group).access := rooted
  have named : (session.naming statement group).world.watch.stopped = false := unstopped
  have ran := loads.running_eq unstopped
  rw [on_obeyToken_load high named] at ran
  generalize session.loading statement group source = loading at *
  rcases loading with ⟨fault | _, after⟩
  · rw [Action.on_bind, ends] at ran
    have failure : session.failure statement = some fault := by
      rw [failure_eq, ran]
      rfl
    refine ⟨failure, fun done => ?_⟩
    rw [failure] at done
    cases done
  · rw [on_bind_of_ok ends] at ran
    obtain ⟨done, settled⟩ := success_of_running ran
    refine ⟨done, fun _ => ?_⟩
    rw [settled]
    exact model

end Loads

end Session

end PaperFolding
