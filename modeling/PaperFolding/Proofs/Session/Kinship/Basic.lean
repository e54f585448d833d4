import PaperFolding.Proofs.Session.Conduct.Scripts

/-!
Two sessions side by side that differ in nothing but their level, their operator and their watch. What an
action does in the first of them it does in the second as well, and they stay such a pair: in any case, or
as long as it succeeds.
-/

namespace PaperFolding

namespace World

/-- The world without the operator and the watch. -/
def unattended (world : World) : World :=
  { world with operator := .absent, watch := ⟨false, none, [], false⟩, extended := false }

theorem unattended_note (world : World) (call : Call) :
    (world.note call).unattended = { world.unattended with calls := world.calls ++ [call] } := by
  have consulted : (world.consult world.watch.choices).unattended = world.unattended :=
    consult_view unattended (fun _ choice _ => by cases choice <;> rfl) world _
  rw [← consulted, ← consult_calls world world.watch.choices]
  rfl

end World

def Transaction.unleveled (transaction : Transaction) : Transaction :=
  { transaction with access := .user }

namespace Session

/-- What two sessions have in common that may differ in level, operator and watch. The transaction is
told apart, as it keeps a level too. -/
def core (session : Session) : Session :=
  { session with access := .user, transaction := none, world := session.world.unattended }

end Session

/-- How the levels and the worlds of two sessions may differ, so that it stays that way. -/
structure Kinship where
  levels : Level → Level → Prop
  worlds : World → World → Prop
  refl : ∀ level, levels level level
  le : ∀ {low high}, levels low high → low ≤ high
  filing : ∀ {first second} files, worlds first second →
    worlds { first with files } { second with files }
  noting : ∀ {first second} call, first.calls = second.calls → worlds first second →
    worlds (first.note call) (second.note call)
  asking : ∀ request {first second : Session}, levels first.access second.access →
    worlds first.world second.world →
    levels ((Session.elevate request).on first).2.access
        ((Session.elevate request).on second).2.access ∧
      worlds ((Session.elevate request).on first).2.world
        ((Session.elevate request).on second).2.world

/-- Failures are matched as well, if `exact` holds, and statements that can be stopped, if `cancellable`
does. -/
structure Kinship.Admits (kinship : Kinship) (exact : Prop) (cancellable : Bool) : Prop where
  level : exact → ∀ {low high}, kinship.levels low high → low = high
  stop : ∀ {first second}, kinship.worlds first second →
    (exact ∨ (cancellable && first.watch.stopped) = false) →
    (cancellable && second.watch.stopped) = (cancellable && first.watch.stopped)

/-- What cannot be stopped asks less. -/
theorem Kinship.Admits.unstoppable {kinship : Kinship} {exact : Prop} {cancellable : Bool}
    (admits : kinship.Admits exact cancellable) : kinship.Admits exact false :=
  ⟨admits.level, fun _ _ => rfl⟩

namespace Session

structure Saves (kinship : Kinship) (first second : Transaction) : Prop where
  unleveled : first.unleveled = second.unleveled
  level : kinship.levels first.access second.access

/-- The sessions differ at most in level, operator and watch, and in these only as it is allowed. -/
structure Kin (kinship : Kinship) (first second : Session) : Prop where
  core : first.core = second.core
  level : kinship.levels first.access second.access
  saved : Option.Rel (Saves kinship) first.transaction second.transaction
  world : kinship.worlds first.world second.world

variable {kinship : Kinship} {exact : Prop} {α β γ : Type} {first second : Session}

namespace Kin

theorem reads (kin : Kin kinship first second) (view : Session → γ)
    (blind : ∀ session : Session, view session.core = view session) : view first = view second := by
  rw [← blind first, ← blind second, kin.core]

/-- A change that neither sees nor touches what the sessions differ in. -/
theorem change (kin : Kin kinship first second) (change : Session → Session)
    (core : ∀ session : Session, (change session.core).core = (change session).core)
    (access : ∀ session, (change session).access = session.access)
    (transaction : ∀ session, (change session).transaction = session.transaction)
    (world : ∀ session, (change session).world = session.world) :
    Kin kinship (change first) (change second) where
  core := by rw [← core first, ← core second, kin.core]
  level := by
    rw [access, access]
    exact kin.level
  saved := by
    rw [transaction, transaction]
    exact kin.saved
  world := by
    rw [world, world]
    exact kin.world

theorem calls (kin : Kin kinship first second) : first.world.calls = second.world.calls :=
  kin.reads (fun session => session.world.calls) fun _ => rfl

theorem files (kin : Kin kinship first second) : first.world.files = second.world.files :=
  kin.reads (fun session => session.world.files) fun _ => rfl

end Kin

/-- The second run ends as the first does, in a session that is kin; if the first run fails, only if
failures are matched. -/
def Tracks (kinship : Kinship) (exact : Prop) (run run' : Except Fault α × Session) : Prop :=
  (exact ∨ ∃ value, run.1 = .ok value) → run'.1 = run.1 ∧ Kin kinship run.2 run'.2

/-- Whatever the action does in a session it does in one that is kin. -/
def Shared (kinship : Kinship) (exact : Prop) (action : Action α) : Prop :=
  ∀ first second, Kin kinship first second →
    Tracks kinship exact (action.on first) (action.on second)

theorem Tracks.of_eq {run run' : Except Fault α × Session} (same : run'.1 = run.1)
    (kin : Kin kinship run.2 run'.2) : Tracks kinship exact run run' := fun _ => ⟨same, kin⟩

/-- A run that fails needs to be matched only if failures are. -/
theorem Tracks.of_error {run run' : Except Fault α × Session} {fault : Fault}
    (failed : run.1 = .error fault) (matched : exact → run'.1 = run.1 ∧ Kin kinship run.2 run'.2) :
    Tracks kinship exact run run' := by
  rintro (holds | ⟨value, done⟩)
  · exact matched holds
  · rw [failed] at done
    cases done

theorem Tracks.bind {action action' : Action α} {next next' : α → Action β}
    (front : Tracks kinship exact (action.on first) (action'.on second))
    (others : ∀ value after after', action.on first = (.ok value, after) →
      Kin kinship after after' →
      Tracks kinship exact ((next value).on after) ((next' value).on after')) :
    Tracks kinship exact ((action >>= next).on first) ((action' >>= next').on second) := by
  intro matched
  rw [Action.on_bind] at matched ⊢
  rw [Action.on_bind]
  revert front others matched
  rcases action.on first with ⟨fault | value, after⟩
  · intro front _ matched
    have holds : exact := matched.resolve_right (by rintro ⟨_, ⟨⟩⟩)
    obtain ⟨same, kin⟩ := front (.inl holds)
    revert same kin
    rcases action'.on second with ⟨_, after'⟩
    rintro ⟨⟩ kin
    exact ⟨rfl, kin⟩
  · intro front others matched
    obtain ⟨same, kin⟩ := front (.inr ⟨value, rfl⟩)
    revert same kin
    rcases action'.on second with ⟨_, after'⟩
    rintro ⟨⟩ kin
    exact others value after after' rfl kin matched

namespace Shared

theorem bind {action : Action α} {next : α → Action β} (front : Shared kinship exact action)
    (others : ∀ value, Shared kinship exact (next value)) :
    Shared kinship exact (action >>= next) := by
  intro first second kin
  apply (front first second kin).bind
  intro value after after' _ kin
  exact others value after after' kin

/-- What is read of the session is nothing that the two differ in. -/
theorem get_bind {next : Session → Action β}
    (blind : ∀ session : Session, next session.core = next session)
    (others : ∀ session, Shared kinship exact (next session)) :
    Shared kinship exact (get >>= next) := by
  intro first second kin
  show Tracks kinship exact ((next first).on first) ((next second).on second)
  rw [kin.reads next blind]
  exact others second first second kin

theorem lift (result : Except Fault α) : Shared kinship exact (lift result) := by
  intro first second kin
  rw [on_lift, on_lift]
  exact .of_eq rfl kin

theorem pure (value : α) : Shared kinship exact (Pure.pure value) := lift (.ok value)

theorem throw (fault : Fault) : Shared kinship exact (throw fault : Action α) := lift (.error fault)

theorem refuseIf (condition : Prop) [Decidable condition] (fault : Fault) :
    Shared kinship exact (refuseIf condition fault) := by
  unfold Session.refuseIf
  split
  · exact throw fault
  · exact pure ()

theorem modify {change : Session → Session}
    (keeps : ∀ {first second}, Kin kinship first second →
      Kin kinship (change first) (change second)) :
    Shared kinship exact (modify change : Action Unit) := by
  intro first second kin
  exact .of_eq rfl (keeps kin)

theorem map {action : Action α} (shared : Shared kinship exact action) (change : α → β) :
    Shared kinship exact (change <$> action) := by
  rw [← bind_pure_comp]
  exact bind shared fun value => pure (change value)

theorem forM {entries : List β} {action : β → Action Unit}
    (shared : ∀ entry, Shared kinship exact (action entry)) :
    Shared kinship exact (entries.forM action) := by
  induction entries with
  | nil => exact pure ()
  | cons entry entries induction => exact bind (shared entry) fun _ => induction

end Shared

/-! ## What changes in both sessions -/

namespace Kin

theorem clearStage (kin : Kin kinship first second) :
    Kin kinship { first with stage := .empty } { second with stage := .empty } :=
  kin.change (fun session => { session with stage := .empty }) (fun _ => rfl) (fun _ => rfl)
    (fun _ => rfl) fun _ => rfl

theorem holding (kin : Kin kinship first second) (ledger : Ledger) :
    Kin kinship (first.holding ledger) (second.holding ledger) :=
  kin.change (Session.holding ledger) (fun _ => rfl) (fun _ => rfl) (fun _ => rfl) fun _ => rfl

theorem apply (kin : Kin kinship first second) (setting : Setting) :
    Kin kinship (setting.apply first) (setting.apply second) := by
  apply kin.change fun session => setting.apply session
  all_goals
    intro session
    cases setting <;> rfl

theorem noting (kin : Kin kinship first second) (call : Call) :
    Kin kinship (first.noting call) (second.noting call) where
  core := by
    have noted (session : Session) : (session.noting call).core =
        { session.core with
          world := { session.core.world with calls := session.core.world.calls ++ [call] } } := by
      rw [Session.core, Session.noting, World.unattended_note]
      rfl
    rw [noted, noted, kin.core]
  level := kin.level
  saved := kin.saved
  world := kinship.noting call kin.calls kin.world

theorem withAccess (kin : Kin kinship first second) {low high : Level}
    (level : kinship.levels low high) :
    Kin kinship (first.withAccess low) (second.withAccess high) :=
  ⟨kin.core, level, kin.saved, kin.world⟩

theorem sandbox (kin : Kin kinship first second) : Kin kinship first.sandbox second.sandbox where
  core := kin.reads (fun session => session.sandbox.core) fun _ => rfl
  level := kinship.refl .user
  saved := .none
  world := kin.world

theorem closing (kin : Kin kinship first second) {sandbox sandbox' : Session}
    (inside : Kin kinship sandbox sandbox') :
    Kin kinship (closing sandbox first) (Session.closing sandbox' second) where
  core := by
    have closed (sandbox session : Session) : (Session.closing sandbox session).core =
        (Session.closing sandbox.core session.core).core := rfl
    rw [closed, closed sandbox', kin.core, inside.core]
  level := kin.level
  saved := kin.saved
  world := inside.world

theorem filing (kin : Kin kinship first second) (files : FileTree) :
    Kin kinship { first with world := { first.world with files } }
      { second with world := { second.world with files } } where
  core := kin.reads (fun session => { session with world := { session.world with files } }.core)
    fun _ => rfl
  level := kin.level
  saved := kin.saved
  world := kinship.filing files kin.world

end Kin

/-! ## What a running statement keeps -/

theorem rel_map {relation : α → α → Prop} {change : α → α} {before before' : Option α}
    (rel : Option.Rel relation before before')
    (keeps : ∀ value value', relation value value' → relation (change value) (change value')) :
    Option.Rel relation (before.map change) (before'.map change) := by
  cases rel with
  | none => exact .none
  | some related => exact .some (keeps _ _ related)

theorem map_unleveled_of_saves {kept kept' : Option Transaction}
    (rel : Option.Rel (Saves kinship) kept kept') :
    kept.map Transaction.unleveled = kept'.map Transaction.unleveled := by
  cases rel with
  | none => rfl
  | some saves => exact congrArg some saves.unleveled

theorem saves_refl (kept : Option Transaction) : Option.Rel (Saves kinship) kept kept := by
  cases kept with
  | none => exact .none
  | some transaction => exact .some ⟨rfl, kinship.refl transaction.access⟩

namespace Kin

theorem unleveled (kin : Kin kinship first second) :
    first.transaction.map Transaction.unleveled = second.transaction.map Transaction.unleveled :=
  map_unleveled_of_saves kin.saved

theorem keptHistory (kin : Kin kinship first second) :
    first.keptHistory = second.keptHistory := by
  have kept (session : Session) : session.keptHistory =
      ((session.transaction.map Transaction.unleveled).bind Transaction.history).getD
        session.history := by
    rw [Session.keptHistory]
    cases session.transaction <;> rfl
  rw [kept, kept, kin.unleveled, kin.reads Session.history fun _ => rfl]

theorem keptPaper (kin : Kin kinship first second) : first.keptPaper = second.keptPaper := by
  have kept (session : Session) : session.keptPaper =
      ((session.transaction.map Transaction.unleveled).bind Transaction.paper).getD
        session.model := by
    rw [Session.keptPaper]
    cases session.transaction <;> rfl
  rw [kept, kept, kin.unleveled, kin.reads Session.model fun _ => rfl]

theorem saving (kin : Kin kinship first second) (keep : Transaction → Transaction)
    (unleveled : ∀ transaction : Transaction,
      (keep transaction.unleveled).unleveled = (keep transaction).unleveled)
    (level : ∀ transaction, (keep transaction).access = transaction.access) :
    Kin kinship { first with transaction := first.transaction.map keep }
      { second with transaction := second.transaction.map keep } where
  core := kin.core
  level := kin.level
  saved := by
    apply rel_map kin.saved
    intro transaction transaction' saves
    constructor
    · rw [← unleveled, saves.unleveled, unleveled]
    · rw [level, level]
      exact saves.level
  world := kin.world

theorem replacing (kin : Kin kinship first second) (ledger : Ledger) :
    Kin kinship (first.replacing ledger) (second.replacing ledger) := by
  have saved := kin.saving (fun transaction => { transaction with paper := some first.keptPaper })
    (fun _ => rfl) fun _ => rfl
  rw [Session.replacing, Session.replacing, ← kin.keptPaper]
  exact saved.holding ledger

theorem rewriting (kin : Kin kinship first second) (history : List String) :
    Kin kinship (first.rewriting history) (second.rewriting history) := by
  have saved := kin.saving
    (fun transaction => { transaction with history := some first.keptHistory })
    (fun _ => rfl) fun _ => rfl
  rw [Session.rewriting, Session.rewriting, ← kin.keptHistory]
  exact saved.change (fun session => { session with history }) (fun _ => rfl) (fun _ => rfl)
    (fun _ => rfl) fun _ => rfl

theorem drafting (kin : Kin kinship first second) (draft : Draft) :
    Kin kinship { first with draft } { second with draft } :=
  kin.change (fun session => { session with draft }) (fun _ => rfl) (fun _ => rfl) (fun _ => rfl)
    fun _ => rfl

theorem rebasing (kin : Kin kinship first second) (scope : Scope) (construction : String)
    (rest : List String) :
    Kin kinship (first.rebasing scope construction rest)
      (second.rebasing scope construction rest) := by
  have draft := kin.reads Session.draft fun _ => rfl
  unfold Session.rebasing
  rw [draft]
  split
  · exact (kin.rewriting _).drafting _
  · exact kin

theorem resuming (kin : Kin kinship first second) (recording : Bool) (rest : List String) :
    Kin kinship (first.resuming recording rest) (second.resuming recording rest) := by
  simp only [Session.resuming]
  rw [kin.reads Session.history fun _ => rfl]
  split
  · exact (kin.rewriting _).drafting _
  · exact kin

theorem enter (kin : Kin kinship first second) (statement : String) :
    Kin kinship (first.enter statement) (second.enter statement) where
  core := kin.reads (fun session => (session.enter statement).core) fun _ => rfl
  level := kin.level
  saved := .some ⟨kin.reads (fun session => session.begin.unleveled) fun _ => rfl, kin.level⟩
  world := kin.world

theorem settle (kin : Kin kinship first second) : Kin kinship first.settle second.settle where
  core := kin.reads (fun session => session.settle.core) fun _ => rfl
  level := kin.level
  saved := .none
  world := kin.world

end Kin

end Session

end PaperFolding
