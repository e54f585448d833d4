import PaperFolding.Proofs.Session.Watching

/-!
Two sessions side by side of which only a part is known to be the same. What looks at no more than that part
ends alike in both of them, and if it succeeds, that part is still the same.
-/

namespace PaperFolding

/-- What can be seen of a session besides its settings, its level, the file it names and its world. -/
structure Sight where
  paper : Bool
  color : Bool
  /-- The rest of the appearance, and what is told and recorded. -/
  features : Bool
deriving DecidableEq

def Sight.everything : Sight := ⟨true, true, true⟩

namespace Session

/-- Two plain sessions that nobody watches and that are the same as far as can be seen. What is noted of a
run, and what a failure goes back to, is never seen. -/
structure Resembles (sight : Sight) (first second : Session) : Prop where
  plain : first.engine = .plain
  plain' : second.engine = .plain
  unwatched : first.Unwatched
  unwatched' : second.Unwatched
  settings : first.settings = second.settings
  access : first.access = second.access
  filename : first.filename = second.filename
  files : first.world.files = second.world.files
  replies : first.world.operator.replies = second.world.operator.replies
  model : sight.paper = true → first.model = second.model
  stage : sight.paper = true → first.stage = second.stage
  color : sight.color = true → first.color = second.color
  camera : sight.features = true → first.camera = second.camera
  texture : sight.features = true → first.texture = second.texture
  locale : sight.features = true → first.locale = second.locale
  transcript : sight.features = true → first.transcript = second.transcript
  history : sight.features = true → first.history = second.history
  draft : sight.features = true → first.draft = second.draft

/-- Two runs end alike, and if they succeed, they leave sessions that are related. -/
structure Meets {α : Type} (relation : Session → Session → Prop)
    (run run' : Except Fault α × Session) : Prop where
  outcome : run'.1 = run.1
  related : ∀ value, run.1 = .ok value → relation run.2 run'.2

/-- The action looks at nothing that is out of sight. -/
def Blind {α : Type} (sight : Sight) (action : Action α) : Prop :=
  ∀ first second, Resembles sight first second →
    Meets (Resembles sight) (action.on first) (action.on second)

variable {sight : Sight} {α β : Type} {first second : Session}

namespace Meets

variable {relation relation' : Session → Session → Prop}

theorem of_related {run run' : Except Fault α × Session} (outcome : run'.1 = run.1)
    (related : relation run.2 run'.2) : Meets relation run run' := ⟨outcome, fun _ _ => related⟩

theorem ok {after : Session} {run : Except Fault Unit × Session}
    (meets : Meets relation (.ok (), after) run) :
    ∃ after', run = (.ok (), after') ∧ relation after after' :=
  ⟨run.2, Prod.ext meets.outcome rfl, meets.related () rfl⟩

theorem bind {action action' : Action α} {next next' : α → Action β}
    (front : Meets relation (action.on first) (action'.on second))
    (others : ∀ value after after', relation after after' →
      Meets relation' ((next value).on after) ((next' value).on after')) :
    Meets relation' ((action >>= next).on first) ((action' >>= next').on second) := by
  obtain ⟨outcome, related⟩ := front
  rw [Action.on_bind, Action.on_bind]
  revert outcome related
  rcases action.on first with ⟨fault | value, after⟩
  · rcases action'.on second with ⟨_, after'⟩
    rintro ⟨⟩ -
    exact ⟨rfl, nofun⟩
  · rcases action'.on second with ⟨_, after'⟩
    rintro ⟨⟩ related
    exact others value after after' (related value rfl)

theorem get_bind {next next' : Session → Action β}
    (others : Meets relation ((next first).on first) ((next' second).on second)) :
    Meets relation ((get >>= next).on first) ((get >>= next').on second) := others

end Meets

namespace Blind

theorem bind {action : Action α} {next : α → Action β} (front : Blind sight action)
    (others : ∀ value, Blind sight (next value)) : Blind sight (action >>= next) := by
  intro first second resembles
  apply (front first second resembles).bind
  intro value after after' resembles
  exact others value after after' resembles

/-- What is read of the session can be seen. -/
theorem get_bind {next : Session → Action β}
    (same : ∀ {first second}, Resembles sight first second → next first = next second)
    (others : ∀ session, Blind sight (next session)) : Blind sight (get >>= next) := by
  intro first second resembles
  apply Meets.get_bind
  rw [same resembles]
  exact others second first second resembles

theorem lift (result : Except Fault α) : Blind sight (lift result) := by
  intro first second resembles
  rw [on_lift, on_lift]
  exact .of_related rfl resembles

theorem pure (value : α) : Blind sight (Pure.pure value) := lift (.ok value)

theorem throw (fault : Fault) : Blind sight (throw fault : Action α) := lift (.error fault)

theorem refuseIf (condition : Prop) [Decidable condition] (fault : Fault) :
    Blind sight (refuseIf condition fault) := by
  unfold Session.refuseIf
  split
  · exact throw fault
  · exact pure ()

theorem modify {change : Session → Session}
    (keeps : ∀ {first second}, Resembles sight first second →
      Resembles sight (change first) (change second)) :
    Blind sight (modify change : Action Unit) := by
  intro first second resembles
  exact .of_related rfl (keeps resembles)

theorem map {action : Action α} (blind : Blind sight action) (change : α → β) :
    Blind sight (change <$> action) := by
  rw [← bind_pure_comp]
  exact bind blind fun value => pure (change value)

theorem forM {entries : List β} {action : β → Action Unit}
    (blind : ∀ entry, Blind sight (action entry)) : Blind sight (entries.forM action) := by
  induction entries with
  | nil => exact pure ()
  | cons entry entries induction => exact bind (blind entry) fun _ => induction

end Blind

/-! ## What changes in both sessions -/

namespace Resembles

theorem refl {session : Session} (plain : session.engine = .plain) (unwatched : session.Unwatched) :
    Resembles sight session session where
  plain := plain
  plain' := plain
  unwatched := unwatched
  unwatched' := unwatched
  settings := rfl
  access := rfl
  filename := rfl
  files := rfl
  replies := rfl
  model _ := rfl
  stage _ := rfl
  color _ := rfl
  camera _ := rfl
  texture _ := rfl
  locale _ := rfl
  transcript _ := rfl
  history _ := rfl
  draft _ := rfl

theorem trans {third : Session} (resembles : Resembles sight first second)
    (resembles' : Resembles sight second third) : Resembles sight first third where
  plain := resembles.plain
  plain' := resembles'.plain'
  unwatched := resembles.unwatched
  unwatched' := resembles'.unwatched'
  settings := resembles.settings.trans resembles'.settings
  access := resembles.access.trans resembles'.access
  filename := resembles.filename.trans resembles'.filename
  files := resembles.files.trans resembles'.files
  replies := resembles.replies.trans resembles'.replies
  model seen := (resembles.model seen).trans (resembles'.model seen)
  stage seen := (resembles.stage seen).trans (resembles'.stage seen)
  color seen := (resembles.color seen).trans (resembles'.color seen)
  camera seen := (resembles.camera seen).trans (resembles'.camera seen)
  texture seen := (resembles.texture seen).trans (resembles'.texture seen)
  locale seen := (resembles.locale seen).trans (resembles'.locale seen)
  transcript seen := (resembles.transcript seen).trans (resembles'.transcript seen)
  history seen := (resembles.history seen).trans (resembles'.history seen)
  draft seen := (resembles.draft seen).trans (resembles'.draft seen)

theorem engine (resembles : Resembles sight first second) : first.engine = second.engine :=
  resembles.plain.trans resembles.plain'.symm

theorem ordinary (resembles : Resembles sight first second) : Ordinary first ∧ Ordinary second :=
  ⟨⟨resembles.plain ▸ Engine.plain_foldsPlainly, resembles.unwatched.inactive,
      resembles.unwatched.unstopped⟩,
    resembles.plain' ▸ Engine.plain_foldsPlainly, resembles.unwatched'.inactive,
      resembles.unwatched'.unstopped⟩

theorem noting (resembles : Resembles sight first second) (call call' : Call) :
    Resembles sight (first.noting call) (second.noting call') := by
  obtain ⟨files, replies⟩ := first.world.note_surroundings call
  obtain ⟨files', replies'⟩ := second.world.note_surroundings call'
  have unwatched : (first.noting call).Unwatched := by
    rw [Unwatched, Session.noting, note_watch resembles.unwatched.inactive]
    exact resembles.unwatched
  have unwatched' : (second.noting call').Unwatched := by
    rw [Unwatched, Session.noting, note_watch resembles.unwatched'.inactive]
    exact resembles.unwatched'
  exact { resembles with
    unwatched := unwatched
    unwatched' := unwatched'
    files := files.trans (resembles.files.trans files'.symm)
    replies := replies.trans (resembles.replies.trans replies'.symm) }

theorem clearStage (resembles : Resembles sight first second) :
    Resembles sight { first with stage := .empty } { second with stage := .empty } :=
  { resembles with stage := fun _ => rfl }

theorem holding (resembles : Resembles sight first second) (ledger : Ledger) :
    Resembles sight (first.holding ledger) (second.holding ledger) :=
  { resembles with model := fun _ => rfl }

theorem replacing (resembles : Resembles sight first second) (ledger : Ledger) :
    Resembles sight (first.replacing ledger) (second.replacing ledger) :=
  { resembles with model := fun _ => rfl }

theorem rewriting (resembles : Resembles sight first second) {history history' : List String}
    (same : sight.features = true → history = history') :
    Resembles sight (first.rewriting history) (second.rewriting history') :=
  { resembles with history := same }

theorem rebasing (resembles : Resembles sight first second) (scope : Scope) (construction : String)
    (rest : List String) :
    Resembles sight (first.rebasing scope construction rest)
      (second.rebasing scope construction rest) := by
  unfold Session.rebasing
  split
  · exact { resembles with
      history := fun seen => by simp only [Session.rewriting, resembles.draft seen]
      draft := fun seen => by simp only [resembles.draft seen] }
  · exact resembles

theorem remembering (resembles : Resembles sight first second) (word : String)
    (taken : List String) :
    Resembles sight (first.remembering word taken) (second.remembering word taken) :=
  { resembles with draft := fun seen => by simp only [Session.remembering, resembles.draft seen] }

theorem applying (resembles : Resembles sight first second) :
    Resembles sight first.applying second.applying :=
  { resembles with draft := fun seen => by simp only [Session.applying, resembles.draft seen] }

theorem apply (resembles : Resembles sight first second) (setting : Setting) :
    Resembles sight (setting.apply first) (setting.apply second) := by
  cases setting with
  | locale place => exact { resembles with locale := fun _ => rfl }
  | filename path => exact { resembles with filename := rfl }
  | camera view => exact { resembles with camera := fun _ => rfl }
  | color tint => exact { resembles with color := fun _ => rfl }
  | uncolor =>
      exact { resembles with color := fun _ => congrArg Settings.resetColor resembles.settings }
  | _ =>
      exact { resembles with
        stage := fun seen => by
          rw [Setting.stage_apply, Setting.stage_apply, resembles.stage seen] }

theorem withAccess (resembles : Resembles sight first second) {level level' : Level}
    (same : level = level') :
    Resembles sight (first.withAccess level) (second.withAccess level') :=
  { resembles with access := same }

theorem filing (resembles : Resembles sight first second) (files : FileTree) :
    Resembles sight { first with world := { first.world with files } }
      { second with world := { second.world with files } } :=
  { resembles with files := rfl }

/-- A sandbox takes along nothing that can be out of sight. -/
theorem sandbox (resembles : Resembles sight first second) :
    Resembles .everything first.sandbox second.sandbox where
  plain := resembles.plain
  plain' := resembles.plain'
  unwatched := resembles.unwatched
  unwatched' := resembles.unwatched'
  settings := resembles.settings
  access := rfl
  filename := resembles.filename
  files := resembles.files
  replies := resembles.replies
  model _ := rfl
  stage _ := rfl
  color _ := congrArg Settings.initialColor resembles.settings
  camera _ := rfl
  texture _ := rfl
  locale _ := rfl
  transcript _ := rfl
  history _ := rfl
  draft _ := rfl

theorem closing (resembles : Resembles sight first second) {inside inside' : Session}
    (within : Resembles .everything inside inside') :
    Resembles sight (closing inside first) (Session.closing inside' second) :=
  { resembles with
    unwatched := within.unwatched
    unwatched' := within.unwatched'
    files := within.files
    replies := within.replies
    transcript := fun seen => by
      simp only [Session.closing, resembles.transcript seen, within.transcript rfl] }

end Resembles

namespace Blind

theorem atLevel {level : Level} {action : Action Unit} (blind : Blind sight action) :
    Blind sight (atLevel level action) := by
  intro first second resembles
  have meets := blind _ _ (resembles.withAccess (Eq.refl level))
  rw [on_atLevel, on_atLevel]
  exact ⟨meets.outcome, fun value done => (meets.related value done).withAccess resembles.access⟩

theorem inSandbox {action : Action Unit} (blind : Blind .everything action) :
    Blind sight (inSandbox action) := by
  intro first second resembles
  have meets := blind _ _ resembles.sandbox
  rw [on_inSandbox, on_inSandbox]
  exact ⟨meets.outcome, fun value done => resembles.closing (meets.related value done)⟩

end Blind

end Session

end PaperFolding
