import PaperFolding.Proofs.Session.Keeping
import PaperFolding.Proofs.Session.Renewal

/-!
Sessions whose paper and colors are of a grade. What a session makes, folds and sets by itself is of that
grade; only an archive that it opens can fall short of it.
-/

namespace PaperFolding

/-- Creases go over the whole paper. -/
def Record.CreasesAll (record : Record) : Prop := record.operation = .crease → record.region = none

/-- What paper and colors are to be like, where archives are opened that are legible. Colors that are packed
from a number always are. -/
structure Grade where
  legible : Archive → Prop
  paper : Ledger → Prop
  color : Color → Prop
  packed : ∀ number, color (.ofPacked number)

/-- The archive is of the grade if it can be opened at all. -/
structure Grade.Admits (grade : Grade) (archive : Archive) : Prop where
  paper : grade.legible archive → grade.paper archive.ledger
  color : grade.legible archive → ∀ color ∈ archive.color, grade.color color

structure Engine.Upholds (grade : Grade) (engine : Engine) : Prop where
  opens : ∀ {files path archive}, engine.openArchive files path = .ok archive → grade.legible archive
  preset : ∀ preset, grade.paper (engine.fromPreset preset)
  corners : ∀ {corners ledger}, engine.fromCorners corners = .ok ledger → grade.paper ledger
  apply : ∀ {ledger folded record}, record.CreasesAll →
    engine.apply ledger record = .ok folded → grade.paper ledger → grade.paper folded
  undo : ∀ {ledger undone}, engine.undo ledger = .ok undone → grade.paper ledger → grade.paper undone
  redo : ∀ {ledger redone}, engine.redo ledger = .ok redone → grade.paper ledger → grade.paper redone

/-- What a session has of paper and of colors, now and for its failure. -/
structure Holdings where
  engine : Engine
  settings : Settings
  model : Option Ledger
  kept : Option Ledger
  color : Color
  saved : Option Color

structure Holdings.Graded (grade : Grade) (holdings : Holdings) : Prop where
  engine : holdings.engine.Upholds grade
  initial : grade.color holdings.settings.initialColor
  reset : grade.color holdings.settings.resetColor
  model : ∀ ledger ∈ holdings.model, grade.paper ledger
  kept : ∀ ledger ∈ holdings.kept, grade.paper ledger
  color : grade.color holdings.color
  saved : ∀ color ∈ holdings.saved, grade.color color

namespace Session

variable {α β : Type} {grade : Grade} {session after : Session} {ledger : Ledger}

def holdings (session : Session) : Holdings :=
  { engine := session.engine
    settings := session.settings
    model := session.model
    kept := session.keptPaper
    color := session.color
    saved := session.transaction.map Transaction.color }

/-- All that the session holds is of the grade. -/
abbrev Graded (grade : Grade) (session : Session) : Prop := session.holdings.Graded grade

namespace Graded

theorem of_eq (graded : session.Graded grade) (same : after.holdings = session.holdings) :
    after.Graded grade := by
  rw [Graded, same]
  exact graded

theorem ofSettings {settings : Settings} {engine : Engine} (upholds : engine.Upholds grade)
    (initial : grade.color settings.initialColor) (reset : grade.color settings.resetColor)
    (world : World) : (ofSettings settings engine world).Graded grade where
  engine := upholds
  initial := initial
  reset := reset
  model := nofun
  kept := nofun
  color := initial
  saved := nofun

theorem withColor (graded : session.Graded grade) {color : Color} (good : grade.color color) :
    { session with color }.Graded grade :=
  { graded with color := good }

theorem withAccess (graded : session.Graded grade) (level : Level) :
    (session.withAccess level).Graded grade := graded

theorem elsewhere (graded : session.Graded grade) (world : World) :
    { session with world }.Graded grade := graded

theorem holding (graded : session.Graded grade) (good : grade.paper ledger) :
    (session.holding ledger).Graded grade := by
  have fresh : ∀ other ∈ some ledger, grade.paper other := by
    rintro _ ⟨⟩
    exact good
  refine { graded with model := fresh, kept := ?_ }
  show ∀ other ∈ (session.holding ledger).keptPaper, grade.paper other
  cases replaced : session.transaction.bind Transaction.paper with
  | none =>
      rw [(session.holding ledger).keptPaper_of_present replaced]
      exact fresh
  | some paper =>
      rw [keptPaper_holding_of_replaced ledger replaced]
      exact graded.kept

theorem replacing (graded : session.Graded grade) (good : grade.paper ledger) :
    (session.replacing ledger).Graded grade := by
  have fresh : ∀ other ∈ some ledger, grade.paper other := by
    rintro _ ⟨⟩
    exact good
  have saved : (session.replacing ledger).transaction.map Transaction.color =
      session.transaction.map Transaction.color := by
    rw [Session.replacing]
    cases session.transaction <;> rfl
  have rest : ∀ color ∈ (session.replacing ledger).holdings.saved, grade.color color := by
    rw [holdings, saved]
    exact graded.saved
  refine { graded with model := fresh, kept := ?_, saved := rest }
  show ∀ other ∈ (session.replacing ledger).keptPaper, grade.paper other
  cases running : session.transaction with
  | none =>
      have present : (session.replacing ledger).transaction.bind Transaction.paper = none := by
        rw [Session.replacing, running]
        rfl
      rw [(session.replacing ledger).keptPaper_of_present present]
      exact fresh
  | some transaction =>
      rw [keptPaper_replacing ledger (by rw [running]; rfl)]
      exact graded.kept

theorem enter (graded : session.Graded grade) (statement : String) :
    (session.enter statement).Graded grade := by
  refine { graded with kept := graded.model, saved := ?_ }
  rintro _ ⟨⟩
  exact graded.color

theorem settle (graded : session.Graded grade) : session.settle.Graded grade :=
  { graded with kept := graded.model, saved := nofun }

end Graded

theorem holdings_rewriting (history : List String) (session : Session) :
    (session.rewriting history).holdings = session.holdings := by
  rw [holdings, holdings, keptPaper_rewriting, rewriting]
  cases session.transaction <;> rfl

/-! ## Actions -/

/-- The action leaves a session graded that is so, and what it gives is good. -/
def Provides (grade : Grade) (good : α → Prop) (action : Action α) : Prop :=
  ∀ session, session.Graded grade → (action.on session).2.Graded grade ∧
    ∀ value, (action.on session).1 = .ok value → good value

abbrev Upholds (grade : Grade) (action : Action α) : Prop := Provides grade (fun _ => True) action

/-- A run goes on with what its first action has come to. -/
theorem graded_bind {first : Action α} {next : α → Action β}
    (front : (first.on session).2.Graded grade)
    (others : ∀ value after, first.on session = (.ok value, after) → after.Graded grade →
      ((next value).on after).2.Graded grade) :
    ((first >>= next).on session).2.Graded grade := by
  rw [Action.on_bind]
  revert front others
  rcases first.on session with ⟨_ | value, after⟩
  · exact fun front _ => front
  · exact fun front others => others value after rfl front

theorem graded_looking {first : Action α} {next : α → Action β} (looks : Looks first)
    (graded : session.Graded grade)
    (others : ∀ value, first.on session = (.ok value, session) →
      ((next value).on session).2.Graded grade) :
    ((first >>= next).on session).2.Graded grade := by
  refine graded_bind (by rwa [looks session]) fun value after done _ => ?_
  obtain rfl := looks.eq done
  exact others value done

namespace Provides

variable {good : α → Prop} {good' : β → Prop}

theorem bind {first : Action α} {next : α → Action β} (front : Provides grade good first)
    (others : ∀ value, good value → Provides grade good' (next value)) :
    Provides grade good' (first >>= next) := by
  intro session graded
  have begun := front session graded
  rw [Action.on_bind]
  revert begun
  rcases first.on session with ⟨_ | value, after⟩
  · exact fun begun => ⟨begun.1, nofun⟩
  · exact fun begun => others value (begun.2 value rfl) after begun.1

theorem preserving {action : Action α} (preserves : Preserves holdings action) :
    Upholds grade action := fun session graded =>
  ⟨graded.of_eq (preserves session), fun _ _ => trivial⟩

theorem get : Provides grade (Graded grade) (MonadState.get : Action Session) := by
  rintro session graded
  refine ⟨graded, ?_⟩
  rintro _ ⟨⟩
  exact graded

theorem modify {change : Session → Session}
    (keeps : ∀ {session : Session}, session.Graded grade → (change session).Graded grade) :
    Upholds grade (modify change : Action Unit) := fun _ graded =>
  ⟨keeps graded, fun _ _ => trivial⟩

theorem lift {result : Except Fault α} (right : ∀ value, result = .ok value → good value) :
    Provides grade good (lift result) := by
  intro session graded
  rw [on_lift]
  exact ⟨graded, right⟩

theorem pure {value : α} (right : good value) : Provides grade good (Pure.pure value) := by
  have given : Provides grade good (Session.lift (.ok value)) := by
    apply lift
    rintro _ ⟨⟩
    exact right
  exact given

theorem graded {action : Action α} (provides : Provides grade good action)
    (graded : session.Graded grade) : (action.on session).2.Graded grade :=
  (provides session graded).1

theorem looking {action : Action α} (looks : Looks action) : Upholds grade action :=
  .preserving (.looking looks)

theorem note (call : Call) : Upholds grade (note call) := .preserving (.modify fun _ => rfl)

theorem clearStage : Upholds grade clearStage := .preserving (.modify fun _ => rfl)

theorem replacePaper (good : grade.paper ledger) : Upholds grade (replacePaper ledger) :=
  .modify fun graded => graded.replacing good

theorem rebase (scope : Scope) (construction : String) (rest : List String) :
    Upholds grade (rebase scope construction rest) := by
  refine .preserving (.modify fun session => ?_)
  unfold rebasing
  split
  · exact holdings_rewriting [rebasedEntry session.draft.lead construction rest] session
  · rfl

theorem fold (word : String) (call : Call) {step : Engine → Ledger → Except Refusal Ledger}
    (keeps : ∀ {engine : Engine} {ledger folded}, engine.Upholds grade →
      step engine ledger = .ok folded → grade.paper ledger → grade.paper folded) :
    Upholds grade (fold word call step) := by
  intro session graded
  refine ⟨?_, fun _ _ => trivial⟩
  rw [on_fold]
  cases held : session.model with
  | none => exact graded
  | some ledger =>
      have noted : (session.noting call).Graded grade := graded
      cases folds : step session.engine ledger with
      | error refusal =>
          simp only [folds]
          exact noted
      | ok folded =>
          simp only [folds]
          exact noted.holding (keeps graded.engine folds (graded.model ledger held))

theorem operate (word : String) {record : Record} (creases : record.CreasesAll) :
    Upholds grade (operate word record) :=
  fold word _ fun upholds applied good => upholds.apply creases applied good

theorem undoSheet (word : String) : Upholds grade (undoSheet word) :=
  fold word _ fun upholds => upholds.undo

theorem redoSheet (word : String) : Upholds grade (redoSheet word) :=
  fold word _ fun upholds => upholds.redo

end Provides

end Session

end PaperFolding
