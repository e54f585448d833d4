import PaperFolding.Proofs.Session.Reasons
import PaperFolding.Proofs.Session.Watching

/-!
Starting over cannot be stopped. Whatever a replay runs ends as it does when nobody watches, and so a
statement that ends by undoing comes to its end once the undoing has begun.
-/

namespace PaperFolding

/-- Every fault but a stop. -/
def Reasons.unstopped : Reasons := .except .cancelled id

namespace Session

/-! ## Scripts that cannot be stopped -/

/-- Scripts from files, with something else in the place of those that can be stopped. -/
def Nested.insisting (instead : Action Unit) : Nat → Nested
  | 0 => .ofDepth 0
  | depth + 1 =>
      let inner := insisting instead depth
      ⟨fun cancellable source =>
          if cancellable then instead
          else atLevel .user (runBody inner false (Script.tokens source)),
        fun cancellable source =>
          if cancellable then instead else inSandbox (attempt inner false source)⟩

/-- The scripts are the same as long as nothing can stop them. -/
structure Unhurried (nested nested' : Nested) : Prop where
  load : nested.load false = nested'.load false
  compile : nested.compile false = nested'.compile false

section Unhurried

variable {nested nested' : Nested}

theorem Unhurried.obey (same : Unhurried nested nested') (recording : Bool)
    (takeBack : List String → Action Unit) :
    Session.obey nested ⟨recording, false⟩ takeBack =
      Session.obey nested' ⟨recording, false⟩ takeBack := by
  funext command rest
  cases command with
  | load => simp only [Session.obey, Session.load, same.load]
  | compile => simp only [Session.obey, Session.compile, same.compile]
  | _ => rfl

theorem Unhurried.runBody (same : Unhurried nested nested') (row : List String) :
    Session.runBody nested false row = Session.runBody nested' false row := by
  rw [Session.runBody, Session.runBody, same.obey]

theorem Unhurried.replay (same : Unhurried nested nested') :
    Session.replay nested = Session.replay nested' := by
  simp only [Session.replay, same.runBody]

theorem Unhurried.attempt (same : Unhurried nested nested') (statement : String) :
    Session.attempt nested false statement = Session.attempt nested' false statement := by
  have takesBack : replayUndo nested true 1 = replayUndo nested' true 1 := by
    funext rest
    rw [replayUndo, replayUndo, same.replay]
  rw [Session.attempt, Session.attempt, runRecorded, runRecorded, takesBack, same.obey]

/-- What cannot be stopped runs nothing that can be, however deep scripts are nested. -/
theorem unhurried_insisting (instead : Action Unit) (depth : Nat) :
    Unhurried (.insisting instead depth) (.ofDepth depth) := by
  induction depth with
  | zero => exact ⟨rfl, rfl⟩
  | succ depth induction =>
      constructor
      · funext source
        rw [Nested.load_ofDepth, ← induction.runBody]
        rfl
      · funext source
        rw [Nested.compile_ofDepth, ← induction.attempt]
        rfl

end Unhurried

/-- Whatever the operator does in the meantime, the action ends as it does when nobody watches. -/
structure Unstoppable (action : Action Unit) (session : Session) : Prop where
  outcome : (action.on session).1 = (action.on (session.setWatch false)).1
  ends : (action.on session).2.unasked = (action.on (session.setWatch false)).2.unasked
  uncancelled : session.engine.FailsBy .unstopped → (action.on session).1 ≠ .error .cancelled

theorem unstoppable_of_shared {action : Action Unit} (shared : Shared (attending False) True action)
    (fails : FailsBy .unstopped action) (session : Session) : Unstoppable action session := by
  obtain ⟨same, kin⟩ := shared _ _ (kin_unattended session) (.inl trivial)
  refine ⟨same.symm, kin.unasked_eq, ?_⟩
  intro allowed
  exact (fails session allowed).1.ne_error

/-! ## Where a statement has come to -/

/-- The tokens before `rest` have been obeyed, which led to `reached`. -/
inductive Reaches (run : Command → List String → Action Unit) (scope : Scope) :
    List String → Session → List String → Session → Prop where
  | here (rest : List String) (reached : Session) : Reaches run scope rest reached rest reached
  | step {token : String} {others rest : List String} {session middle reached : Session} :
      (obeyToken run scope token others).on session = (.ok (), middle) →
      Reaches run scope others middle rest reached →
      Reaches run scope (token :: others) session rest reached

section Reaches

variable {run : Command → List String → Action Unit} {scope : Scope} {row rest : List String}
  {session reached : Session} {kinship : Kinship}

theorem Reaches.dispatch (reaches : Reaches run scope row session rest reached) :
    (dispatch run scope row).on session = (Session.dispatch run scope rest).on reached := by
  induction reaches with
  | here => rfl
  | step obeyed _ induction => exact (on_bind_of_ok obeyed).trans induction

theorem Reaches.kin {second : Session} (reaches : Reaches run scope row session rest reached)
    (admits : kinship.Admits False scope.cancellable)
    (shared : ∀ command rest, Shared kinship False (run command rest))
    (kin : Kin kinship session second) :
    ∃ reached', Reaches run scope row second rest reached' ∧ Kin kinship reached reached' := by
  induction reaches generalizing second with
  | here rest reached => exact ⟨second, .here rest second, kin⟩
  | @step token others _ _ _ _ obeyed _ induction =>
      have tracks := shared_obeyToken admits shared token others _ _ kin
      rw [obeyed] at tracks
      generalize obeyed' : (obeyToken run scope token others).on second = run' at tracks
      obtain ⟨_, middle'⟩ := run'
      obtain ⟨⟨⟩, kin⟩ := tracks (.inr ⟨(), rfl⟩)
      obtain ⟨reached', reaches', kin⟩ := induction kin
      exact ⟨reached', .step obeyed' reaches', kin⟩

end Reaches

theorem unasked_setWatch (active : Bool) (session : Session) :
    (session.setWatch active).unasked = session.unasked := rfl

section LastUndo

variable {nested : Nested} {first second session reached : Session} {statement : String}

/-- The scope of a statement that is executed. -/
def statementScope : Scope := ⟨true, true⟩

/-- What a statement does with its commands. -/
def obeying (session : Session) : Command → List String → Action Unit :=
  obey (.ofDepth session.nestingBound) statementScope
    (replayUndo (.ofDepth session.nestingBound) true 1)

/-- An `undo` that has begun before it could be stopped is done to its end. -/
theorem tracks_lastUndo (scripts : SharesScripts (attending False) True nested)
    (kin : Kin (attending False) first second) (unstopped : first.world.watch.stopped = false) :
    Tracks (attending False) True
      ((obeyToken (obey nested statementScope (replayUndo nested true 1)) statementScope
        Command.undo.name []).on first)
      ((obeyToken (obey nested statementScope (replayUndo nested true 1)) statementScope
        Command.undo.name []).on second) := by
  have passes {session : Session} (unstopped : session.world.watch.stopped = false) :
      (checkpoint statementScope).on session = (.ok (), session) := by
    rw [on_checkpoint, unstopped]
    rfl
  -- behind the checkpoint nothing looks at the watch any more
  have admits : (attending False).Admits True false := attending_admits_unstoppable
  have undoes : Shared (attending False) True
      (obey nested statementScope (replayUndo nested true 1) .undo []) :=
    shared_undoOr (shared_replayUndo scripts admits true 1 [])
  rw [obeyToken_command_eq, on_bind_of_ok (passes unstopped),
    on_bind_of_ok (passes kin.world.idle.unstopped)]
  exact shared_obeyCommand admits undoes _ _ kin

/-- Once a statement has come to an `undo` at its end, nothing keeps it from its end. -/
theorem kin_executed_of_reaches (unwatched : session.Unwatched)
    (reaches : Reaches session.obeying statementScope (Script.tokens statement)
      ((session.setWatch true).enter statement) [Command.undo.name] reached)
    (unstopped : reached.world.watch.stopped = false) :
    Kin (attending False) ((session.setWatch true).executed statement)
      (session.executed statement) := by
  have scripts (exact : Prop) := sharesScripts_ofDepth (attending False) exact session.nestingBound
  -- up to the `undo` the run that nobody watches follows because no token fails, from there on in any case
  have success : (attending False).Admits False true := attending_admits_success
  obtain ⟨reached', reaches', kin⟩ := reaches.kin success
    (shared_obey (scripts False) success (shared_replayUndo (scripts False) success true 1))
    ((unwatched.kin true).enter statement)
  have run : (session.setWatch true).running statement =
      (dispatch session.obeying statementScope [Command.undo.name]).on reached := reaches.dispatch
  have run' : session.running statement =
      (dispatch session.obeying statementScope [Command.undo.name]).on reached' := reaches'.dispatch
  have tracks : Tracks (attending False) True ((session.setWatch true).running statement)
      (session.running statement) := by
    rw [run, run']
    exact (tracks_lastUndo (scripts True) kin unstopped).bind fun _ _ _ _ kin => .of_eq rfl kin
  rw [executed, executed, on_execute_running, on_execute_running]
  exact (tracks.concluding (.inl trivial)).2

end LastUndo

/-- Nothing that a replay runs can be stopped, at any depth, and nothing that could be is run; and a
statement that has come to the `undo` at its end before it is stopped ends where it would have ended. -/
theorem replay_uninterrupted (session : Session) (statement : String) :
    (∀ depth instead, replay (.insisting instead depth) = replay (.ofDepth depth)) ∧
      (∀ depth recording steps rest row source,
        Unstoppable (replayUndo (.ofDepth depth) recording steps rest) session ∧
          Unstoppable (replay (.ofDepth depth)) session ∧
          Unstoppable (runBody (.ofDepth depth) false row) session ∧
          Unstoppable ((Nested.ofDepth depth).load false source) session ∧
          Unstoppable ((Nested.ofDepth depth).compile false source) session) ∧
      ∀ reached, session.Unwatched →
        Reaches session.obeying statementScope (Script.tokens statement)
          ((session.setWatch true).enter statement) [Command.undo.name] reached →
        reached.world.watch.stopped = false →
        ((executeSupervised statement).on session).2.unasked =
          (session.executed statement).unasked := by
  refine ⟨?_, ?_, ?_⟩
  · intro depth instead
    exact (unhurried_insisting instead depth).replay
  · intro depth recording steps rest row source
    have admits : (attending False).Admits True false := attending_admits_unstoppable
    have scripts := sharesScripts_ofDepth (attending False) True depth
    have deep : Reasons.unstopped.allows .nestedTooDeep := by rintro ⟨⟩
    have fails : ScriptsFailBy .unstopped (.ofDepth depth) := scriptsFailBy_ofDepth deep depth
    have calm : false = true → Reasons.unstopped.allows .cancelled := nofun
    refine ⟨?_, ?_, ?_, ?_, ?_⟩
    · exact unstoppable_of_shared (shared_replayUndo scripts admits recording steps rest)
        (failsBy_replayUndo fails recording steps rest) session
    · exact unstoppable_of_shared (shared_replay scripts admits) (failsBy_replay fails) session
    · exact unstoppable_of_shared (shared_runBody scripts admits row)
        (failsBy_runBody fails calm row) session
    · exact unstoppable_of_shared (scripts false admits source).1 (fails false calm source).1 session
    · exact unstoppable_of_shared (scripts false admits source).2 (fails false calm source).2 session
  · intro reached unwatched reaches unstopped
    have kin := kin_executed_of_reaches unwatched reaches unstopped
    rw [executeSupervised_session, unasked_setWatch, kin.unasked_eq]

/-- The operator stops the statement at the fourth call; the first three have made the paper from a file
and folded it once more. -/
def impatient : Session :=
  ({ ofSettings .standard .forgetful
      { World.quiet
          ⟨[], [(["s"], .file "paper [square] new plane [1 0 0] [1 0 0] reflect".toUTF8)], .willing⟩
          .absent with
        watch := ⟨false, some 3, [.stop], false⟩ } with access := .root }.executed
    "filename [s] load").executed "plane [2 0 0] [1 0 0] reflect"

/-- The stop comes while the file is loaded again. It is put to the operator, and it changes nothing. -/
theorem replay_uninterrupted_impatient :
    ((impatient.setWatch true).executed "undo").world.watch.stopped = true ∧
      ((executeSupervised "undo").on impatient).2.world.calls.length = 5 ∧
      ((executeSupervised "undo").on impatient).2.history = ["filename [s] load"] ∧
      ((executeSupervised "undo").on impatient).2.unasked = (impatient.executed "undo").unasked := by
  have unwatched : impatient.Unwatched := by
    apply Unwatched.executed
    apply Unwatched.executed
    exact ⟨rfl, rfl⟩
  have reaches : Reaches impatient.obeying statementScope (Script.tokens "undo")
      ((impatient.setWatch true).enter "undo") [Command.undo.name]
      ((impatient.setWatch true).enter "undo") := by
    have one : Script.tokens "undo" = [Command.undo.name] := by decide +kernel
    rw [one]
    exact .here _ _
  obtain ⟨stopped, calls, history⟩ :
      ((impatient.setWatch true).executed "undo").world.watch.stopped = true ∧
        ((executeSupervised "undo").on impatient).2.world.calls.length = 5 ∧
        ((executeSupervised "undo").on impatient).2.history = ["filename [s] load"] := by
    decide +kernel
  obtain ⟨-, -, ends⟩ := replay_uninterrupted impatient "undo"
  exact ⟨stopped, calls, history, ends _ unwatched reaches rfl⟩

end Session

end PaperFolding
