import PaperFolding.Session.Statement

/-!
What holds between a session and what becomes of it. A conduct says from which session to which a
running statement may lead; actions follow it if each of their steps does.
-/

namespace PaperFolding

namespace Session

/-- The sessions differ at most in what is set, shown, drafted, stored or answered, and not in whether
the running statement is in the history. -/
structure Beside (before after : Session) : Prop where
  engine : after.engine = before.engine
  transaction : after.transaction = before.transaction
  history : after.history = before.history
  model : after.model = before.model
  watch : after.world.watch = before.world.watch
  inHistory : after.draft.inHistory = before.draft.inHistory

theorem Beside.refl (session : Session) : Beside session session := ⟨rfl, rfl, rfl, rfl, rfl, rfl⟩

theorem Beside.trans {first second third : Session} (earlier : Beside first second)
    (later : Beside second third) : Beside first third where
  engine := later.engine.trans earlier.engine
  transaction := later.transaction.trans earlier.transaction
  history := later.history.trans earlier.history
  model := later.model.trans earlier.model
  watch := later.watch.trans earlier.watch
  inHistory := later.inHistory.trans earlier.inHistory

theorem beside_apply (setting : Setting) (session : Session) :
    Beside session (setting.apply session) := by
  cases setting <;> exact ⟨rfl, rfl, rfl, rfl, rfl, rfl⟩

end Session

/-- Where the steps of commands lead, those of some commands only if they are permitted. Undoing may
start over and do anything again. Steps that rewrite the history belong to recorded scripts. -/
structure Conduct where
  leads : Session → Session → Prop
  permits : Command → Prop
  refl : ∀ session, leads session session
  trans : ∀ {first second third}, leads first second → leads second third → leads first third
  beside : ∀ {before after}, Session.Beside before after → leads before after
  noting : ∀ call session, leads session (session.noting call)
  applying : ∀ {session ledger folded record}, session.model = some ledger →
    session.engine.apply ledger record = .ok folded → leads session (session.holding folded)
  undoing : permits .undo → ∀ {session ledger undone}, session.model = some ledger →
    session.engine.undo ledger = .ok undone → leads session (session.holding undone)
  redoing : permits .redo → ∀ {session ledger redone}, session.model = some ledger →
    session.engine.redo ledger = .ok redone → leads session (session.holding redone)
  replacing : ∀ ledger session, leads session (session.replacing ledger)
  recorded : Prop
  rewriting : recorded → ∀ history draft session,
    leads session { session.rewriting history with draft }
  closing : permits .compile → ∀ sandbox session, leads session (Session.closing sandbox session)
  replaying : permits .undo → ∀ command, permits command

namespace Session

variable {conduct : Conduct} {α β : Type}

/-! ## Actions that only look -/

/-- However the action ends, it leaves the session as it is. -/
def Looks (action : Action α) : Prop := ∀ session, (action.on session).2 = session

theorem Looks.eq {action : Action α} (looks : Looks action) {session after : Session}
    {outcome : Except Fault α} (done : action.on session = (outcome, after)) : session = after := by
  have same := looks session
  rw [done] at same
  exact same.symm

theorem looks_lift (result : Except Fault α) : Looks (lift result) := by
  intro session
  rw [on_lift]

theorem looks_refuseIf (condition : Prop) [Decidable condition] (fault : Fault) :
    Looks (refuseIf condition fault) := by
  intro session
  rw [on_refuseIf]

theorem looks_checkpoint (scope : Scope) : Looks (checkpoint scope) := by
  intro session
  rw [on_checkpoint]

theorem looks_permit (command : Command) : Looks (permit command) := by
  intro session
  rw [on_permit]

theorem looks_scriptFile (word : String) : Looks (scriptFile word) := by
  intro session
  rw [on_scriptFile]

/-! ## Actions that follow a conduct -/

/-- However the action ends, it leads where it may. -/
def Follows (conduct : Conduct) (action : Action α) : Prop :=
  ∀ session, conduct.leads session (action.on session).2

theorem leads_withAccess (level : Level) (session : Session) :
    conduct.leads session (session.withAccess level) :=
  conduct.beside ⟨rfl, rfl, rfl, rfl, rfl, rfl⟩

theorem leads_bind {first : Action α} {next : α → Action β} {session : Session}
    (front : conduct.leads session (first.on session).2)
    (others : ∀ value after, first.on session = (.ok value, after) →
      conduct.leads after ((next value).on after).2) :
    conduct.leads session ((first >>= next).on session).2 := by
  rw [Action.on_bind]
  revert front others
  rcases first.on session with ⟨_ | value, after⟩
  · exact fun front _ => front
  · exact fun front others => conduct.trans front (others value after rfl)

namespace Follows

theorem looking {action : Action α} (looks : Looks action) : Follows conduct action := by
  intro session
  rw [looks]
  exact conduct.refl session

theorem modify {change : Session → Session}
    (leads : ∀ session, conduct.leads session (change session)) :
    Follows conduct (modify change : Action Unit) := leads

theorem bind {first : Action α} {next : α → Action β} (follows : Follows conduct first)
    (others : ∀ value, Follows conduct (next value)) : Follows conduct (first >>= next) :=
  fun session => leads_bind (follows session) fun value after _ => others value after

theorem get_bind {next : Session → Action β} (others : ∀ session, Follows conduct (next session)) :
    Follows conduct (get >>= next) := bind (looking fun _ => rfl) others

theorem throw (fault : Fault) : Follows conduct (throw fault : Action α) := looking fun _ => rfl

theorem pure (value : α) : Follows conduct (Pure.pure value) := looking fun _ => rfl

theorem lift (result : Except Fault α) : Follows conduct (lift result) :=
  looking (looks_lift result)

theorem refuseIf (condition : Prop) [Decidable condition] (fault : Fault) :
    Follows conduct (refuseIf condition fault) :=
  looking (looks_refuseIf condition fault)

theorem paper (word : String) : Follows conduct (paper word) :=
  looking fun session => by rw [on_paper]

theorem requiredFilename (word : String) : Follows conduct (requiredFilename word) :=
  looking fun session => by rw [on_requiredFilename]

theorem note (call : Call) : Follows conduct (note call) := modify (conduct.noting call)

theorem replacePaper (ledger : Ledger) : Follows conduct (replacePaper ledger) :=
  modify (conduct.replacing ledger)

theorem clearStage : Follows conduct clearStage :=
  modify fun _ => conduct.beside ⟨rfl, rfl, rfl, rfl, rfl, rfl⟩

theorem withFiles (step : FileTree → Except Fault Unit × FileTree) :
    Follows conduct (withFiles step) := fun _ => conduct.beside ⟨rfl, rfl, rfl, rfl, rfl, rfl⟩

theorem remember (word : String) (taken : List String) : Follows conduct (remember word taken) :=
  modify fun _ => conduct.beside ⟨rfl, rfl, rfl, rfl, rfl, rfl⟩

theorem rebase {scope : Scope} (records : scope.recording = true → conduct.recorded)
    (construction : String) (rest : List String) :
    Follows conduct (rebase scope construction rest) := by
  refine modify fun session => ?_
  unfold rebasing
  split
  · rename_i recording
    exact conduct.rewriting (records recording) _ _ session
  · exact conduct.refl session

theorem atLevel {level : Level} {action : Action Unit} (follows : Follows conduct action) :
    Follows conduct (atLevel level action) := by
  intro session
  rw [on_atLevel]
  exact conduct.trans (leads_withAccess level session)
    (conduct.trans (follows _) (leads_withAccess session.access _))

theorem forM {entries : List β} {action : β → Action Unit}
    (follows : ∀ entry, Follows conduct (action entry)) :
    Follows conduct (entries.forM action) := by
  induction entries with
  | nil => exact pure ()
  | cons entry entries induction => exact bind (follows entry) fun _ => induction

theorem obey (parameter : Parameter) (arguments : List String) :
    Follows conduct (parameter.obey arguments) :=
  get_bind fun _ => bind (lift _) fun setting => modify fun session =>
    conduct.beside (beside_apply setting session)

end Follows

end Session

end PaperFolding
