import PaperFolding.Proofs.Session.Kinship.Scripts
import PaperFolding.Proofs.Session.Likeness
import PaperFolding.Proofs.Session.Surroundings

/-!
A session under watch beside the same session that nobody watches. Being watched shows in nothing but the
questions that are put, until a statement is stopped.
-/

namespace PaperFolding

namespace Watch

/-- Nobody watches, and nothing is to be stopped. -/
structure Idle (watch : Watch) : Prop where
  inactive : watch.active = false
  unstopped : watch.stopped = false

/-- The watch stops nothing, whatever comes. -/
structure Patient (watch : Watch) : Prop where
  unstopped : watch.stopped = false
  waits : watch.active = true → Choice.stop ∉ watch.choices

theorem Idle.patient {watch : Watch} (idle : watch.Idle) : watch.Patient where
  unstopped := idle.unstopped
  waits active := by
    rw [idle.inactive] at active
    cases active

end Watch

namespace World

theorem active_of_expires {world : World} (expires : world.expires = true) :
    world.watch.active = true ∧ world.watch.gate = some world.calls.length := by
  simp only [World.expires, Bool.and_eq_true, decide_eq_true_eq] at expires
  exact ⟨expires.1.1, expires.2⟩

theorem patient_consult {world : World} (patient : world.watch.Patient) {choices : List Choice}
    (waits : world.watch.active = true → Choice.stop ∉ choices) :
    (world.consult choices).watch.Patient := by
  induction choices generalizing world with
  | nil => exact patient
  | cons choice choices induction =>
      rw [consult]
      split
      · rename_i expires
        have waits := waits (active_of_expires expires).1
        cases choice with
        | stop => exact absurd (List.mem_cons_self ..) waits
        | wait calls =>
            have others : Choice.stop ∉ choices := fun among => waits (List.mem_cons_of_mem _ among)
            exact induction ⟨patient.unstopped, fun _ => others⟩ fun _ => others
      · exact patient

theorem patient_note {world : World} (patient : world.watch.Patient) (call : Call) :
    (world.note call).watch.Patient := patient_consult patient patient.waits

end World

namespace Session

/-- The first world may be watched, and then only patiently if `patient` holds; the second one is not. -/
structure Attended (patient : Prop) (first second : World) : Prop where
  replies : first.operator.replies = second.operator.replies
  idle : second.watch.Idle
  waits : patient → first.watch.Patient

theorem confirm_of_replies {operator operator' : Operator} (same : operator.replies = operator'.replies)
    (request : Elevation) :
    (operator.confirm request).1 = (operator'.confirm request).1 ∧
      (operator.confirm request).2.replies = (operator'.confirm request).2.replies := by
  simp [Operator.confirm, same]

def attending (patient : Prop) : Kinship where
  levels := Eq
  worlds := Attended patient
  refl _ := rfl
  le same := by
    rw [same]
    exact Nat.le_refl _
  filing _ attended := ⟨attended.replies, attended.idle, attended.waits⟩
  noting call _ attended := by
    constructor
    · rw [(World.note_surroundings _ call).2, (World.note_surroundings _ call).2]
      exact attended.replies
    · rw [note_watch attended.idle.inactive]
      exact attended.idle
    · exact fun holds => World.patient_note (attended.waits holds) call
  asking request first second level attended := by
    obtain ⟨granted, left⟩ := confirm_of_replies attended.replies request
    simp only [elevate, Action.on_modify]
    rw [level]
    split
    · exact ⟨level, attended⟩
    · exact ⟨by simp only [granted], left, attended.idle, attended.waits⟩

variable {patient exact : Prop} {cancellable : Bool} {first second session : Session}
  {statement : String}

theorem attending_admits_success : (attending patient).Admits False cancellable where
  level := False.elim
  stop attended runs := by
    rw [attended.idle.unstopped, Bool.and_false, runs.resolve_left id]

theorem attending_admits_unstoppable : (attending patient).Admits exact false where
  level _ _ _ same := same
  stop _ _ := rfl

theorem attending_admits_patient : (attending True).Admits exact cancellable where
  level _ _ _ same := same
  stop attended _ := by
    rw [attended.idle.unstopped, (attended.waits trivial).unstopped]

/-! ## Sessions that nobody watches -/

def Unwatched (session : Session) : Prop := session.world.watch.Idle

theorem Unwatched.kin (unwatched : session.Unwatched) (active : Bool) :
    Kin (attending False) (session.setWatch active) session where
  core := rfl
  level := rfl
  saved := saves_refl session.transaction
  world := ⟨rfl, unwatched, False.elim⟩

theorem kin_unattended (session : Session) :
    Kin (attending False) session (session.setWatch false) where
  core := rfl
  level := rfl
  saved := saves_refl session.transaction
  world := ⟨rfl, ⟨rfl, rfl⟩, False.elim⟩

theorem unwatched_ofSettings (settings : Settings) (engine : Engine) (files : FileTree)
    (operator : Operator) :
    (ofSettings settings engine (.quiet files operator)).Unwatched := ⟨rfl, rfl⟩

/-- Nobody watches a session that executes a statement unless it is told to be watched. -/
theorem Unwatched.executed (unwatched : session.Unwatched) (statement : String) :
    (session.executed statement).Unwatched := by
  have kin : Kin (attending True) session session :=
    ⟨rfl, rfl, saves_refl session.transaction, rfl, unwatched, fun _ => unwatched.patient⟩
  have admits : (attending True).Admits True true := attending_admits_patient
  obtain ⟨-, kin⟩ := kin_executed admits kin rfl (.inl trivial)
  exact kin.world.idle

theorem executeSupervised_session (session : Session) (statement : String) :
    ((executeSupervised statement).on session).2 =
      ((session.setWatch true).executed statement).setWatch false := by
  rw [executeSupervised, Action.on_of, executed]

/-! ## What is the same in sessions that differ in their watch -/

/-- The session without its watch and what has been asked. -/
def unasked (session : Session) : Session :=
  { session with
    world := { session.world with
      watch := ⟨false, none, [], false⟩
      operator := { session.world.operator with asked := [] }
      extended := false } }

theorem eq_of_saves {kept kept' : Option Transaction}
    (rel : Option.Rel (Saves (attending patient)) kept kept') : kept = kept' := by
  cases rel with
  | none => rfl
  | @some transaction transaction' saves =>
      have unleveled := saves.unleveled
      have level : transaction.access = transaction'.access := saves.level
      have whole : transaction = { transaction.unleveled with access := transaction.access } := rfl
      rw [whole, unleveled, level]
      rfl

theorem Kin.unasked_eq (kin : Kin (attending patient) first second) :
    first.unasked = second.unasked := by
  have whole (session : Session) : session.unasked =
      { session.core with
        access := session.access
        transaction := session.transaction
        world := { session.core.world with operator := ⟨session.world.operator.replies, []⟩ } } := rfl
  have level : first.access = second.access := kin.level
  rw [whole, whole second, kin.core, level, eq_of_saves kin.saved, kin.world.replies]

end Session

end PaperFolding
