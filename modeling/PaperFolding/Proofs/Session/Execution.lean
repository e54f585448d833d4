import PaperFolding.Session.Run

/-!
Executing statements one after the other: whether a statement fails, and the session after it.
-/

namespace PaperFolding.Session

def faultOf : Except Fault Unit → Option Fault
  | .ok () => none
  | .error fault => some fault

theorem faultOf_eq_none {result : Except Fault Unit} : faultOf result = none ↔ result = .ok () := by
  cases result <;> simp [faultOf]

theorem faultOf_eq_some {result : Except Fault Unit} {fault : Fault} :
    faultOf result = some fault ↔ result = .error fault := by
  cases result <;> simp [faultOf]

def failure (session : Session) (statement : String) : Option Fault :=
  faultOf ((execute statement).on session).1

def executed (session : Session) (statement : String) : Session :=
  ((execute statement).on session).2

/-- How a statement ends and what it leaves, before it is settled or rolled back. -/
def running (session : Session) (statement : String) : Except Fault Unit × Session :=
  (runRecorded (.ofDepth session.nestingBound) true (Script.tokens statement)).on
    (session.enter statement)

theorem on_execute_running (session : Session) (statement : String) :
    (execute statement).on session = concluding (session.running statement) := by
  rw [on_execute, on_attempt, running]

theorem ok_of_concluding {run : Except Fault Unit × Session} {after : Session}
    (done : concluding run = (.ok (), after)) :
    ∃ reached, run = (.ok (), reached) ∧ after = reached.settle := by
  have outcome : run.1 = .ok () := by rw [← concluding_outcome, done]
  rw [concluding_of_ok outcome] at done
  exact ⟨run.2, Prod.ext outcome rfl, (Prod.mk.inj done).2.symm⟩

theorem failure_eq (session : Session) (statement : String) :
    session.failure statement = faultOf (session.running statement).1 := by
  rw [failure, on_execute_running, concluding_outcome]

theorem executed_of_failure {session : Session} {statement : String} {fault : Fault}
    (failed : session.failure statement = some fault) :
    session.executed statement = (session.running statement).2.recover.settle := by
  rw [failure_eq, faultOf_eq_some] at failed
  rw [executed, on_execute_running, concluding_of_error failed]

theorem executed_of_success {session : Session} {statement : String}
    (done : session.failure statement = none) :
    session.executed statement = (session.running statement).2.settle := by
  rw [failure_eq, faultOf_eq_none] at done
  rw [executed, on_execute_running, concluding_of_ok done]

theorem running_of_success {session : Session} {statement : String}
    (done : session.failure statement = none) :
    ∃ after, session.running statement = (.ok (), after) ∧
      session.executed statement = after.settle := by
  have settled := executed_of_success done
  rw [failure_eq, faultOf_eq_none] at done
  exact ⟨_, Prod.ext done rfl, settled⟩

theorem success_of_running {session after : Session} {statement : String}
    (runs : session.running statement = (.ok (), after)) :
    session.failure statement = none ∧ session.executed statement = after.settle := by
  have done : session.failure statement = none := by
    rw [failure_eq, runs]
    rfl
  exact ⟨done, by rw [executed_of_success done, runs]⟩

theorem settle_engine (session : Session) : session.settle.engine = session.engine := rfl

theorem settle_history (session : Session) : session.settle.history = session.history := rfl

theorem settle_model (session : Session) : session.settle.model = session.model := rfl

theorem settle_stage (session : Session) : session.settle.stage = session.stage := rfl

theorem enter_history (session : Session) (statement : String) :
    (session.enter statement).history = session.history ++ [statement] := rfl

end PaperFolding.Session
