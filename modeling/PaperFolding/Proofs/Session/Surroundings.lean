import PaperFolding.Proofs.Session.Conduct.Basic

/-!
What surrounds the paper of a session: its privileges, its transcript, the files and the replies the
operator has left. Most commands are silent, they leave all of it as it is, and more besides.
-/

namespace PaperFolding

namespace World

theorem note_surroundings (world : World) (call : Call) :
    (world.note call).files = world.files ∧
      (world.note call).operator.replies = world.operator.replies := by
  constructor
  · exact consult_view files (fun _ choice _ => by cases choice <;> rfl) world _
  · exact consult_view (fun world => world.operator.replies)
      (fun _ choice _ => by cases choice <;> rfl) world _

end World

theorem Operator.confirm_of_declines {operator : Operator} (declines : true ∉ operator.replies)
    (request : Elevation) : (operator.confirm request).1 = false := by
  cases replies : operator.replies with
  | nil => simp [confirm, replies]
  | cons reply others =>
      rw [replies, List.mem_cons, not_or] at declines
      simpa [confirm, replies] using declines.1

structure Surroundings where
  engine : Engine
  access : Level
  transcript : List String
  files : FileTree
  replies : List Bool

/-- What no command changes by itself: the settings, what parameters alone set of the appearance, and
how the statement would write what it has set. -/
structure Outlook where
  settings : Settings
  camera : Camera
  locale : Option Locale
  lead : List String

/-- All that a statement notes of the appearance, the color included, which documents may have of their
own. -/
structure Scene extends Outlook where
  color : Color
  filename : Option String

structure Backdrop extends Surroundings, Scene

namespace Session

variable {α β γ : Type}

def surroundings (session : Session) : Surroundings :=
  { engine := session.engine
    access := session.access
    transcript := session.transcript
    files := session.world.files
    replies := session.world.operator.replies }

def outlook (session : Session) : Outlook :=
  { settings := session.settings
    camera := session.camera
    locale := session.locale
    lead := session.draft.lead }

def scene (session : Session) : Scene := ⟨session.outlook, session.color, session.filename⟩

def backdrop (session : Session) : Backdrop := ⟨session.surroundings, session.scene⟩

/-- However the action ends, what is seen of the session stays the same. -/
def Preserves (view : Session → γ) (action : Action α) : Prop :=
  ∀ session, view (action.on session).2 = view session

namespace Preserves

variable {view : Session → γ}

theorem looking {action : Action α} (looks : Looks action) : Preserves view action := by
  intro session
  rw [looks]

theorem modify {change : Session → Session} (same : ∀ session, view (change session) = view session) :
    Preserves view (modify change : Action Unit) := same

theorem bind {first : Action α} {next : α → Action β} (preserves : Preserves view first)
    (others : ∀ value, Preserves view (next value)) : Preserves view (first >>= next) := by
  intro session
  have front := preserves session
  rw [Action.on_bind]
  revert front
  rcases first.on session with ⟨_ | value, after⟩
  · exact id
  · exact fun front => (others value after).trans front

theorem get_bind {next : Session → Action β} (others : ∀ session, Preserves view (next session)) :
    Preserves view (get >>= next) := bind (looking fun _ => rfl) others

theorem pure (value : α) : Preserves view (Pure.pure value) := looking fun _ => rfl

theorem throw (fault : Fault) : Preserves view (throw fault : Action α) := looking fun _ => rfl

theorem lift (result : Except Fault α) : Preserves view (lift result) := looking (looks_lift result)

theorem refuseIf (condition : Prop) [Decidable condition] (fault : Fault) :
    Preserves view (refuseIf condition fault) := looking (looks_refuseIf condition fault)

theorem paper (word : String) : Preserves view (paper word) :=
  looking fun session => by rw [on_paper]

theorem requiredFilename (word : String) : Preserves view (requiredFilename word) :=
  looking fun session => by rw [on_requiredFilename]

end Preserves

/-! ## Silent actions -/

abbrev Silent (action : Action α) : Prop := Preserves surroundings action

theorem Silent.access {action : Action α} (silent : Silent action) :
    Preserves Session.access action := fun session => congrArg Surroundings.access (silent session)

theorem surroundings_noting (call : Call) (session : Session) :
    (session.noting call).surroundings = session.surroundings := by
  obtain ⟨files, replies⟩ := session.world.note_surroundings call
  simp only [surroundings, noting, files, replies]

theorem surroundings_rewriting (history : List String) (session : Session) :
    (session.rewriting history).surroundings = session.surroundings := rfl

theorem surroundings_apply (setting : Setting) (session : Session) :
    (setting.apply session).surroundings = session.surroundings := by
  cases setting <;> rfl

/-- The action leaves the whole backdrop as it is. -/
abbrev Still (action : Action α) : Prop := Preserves backdrop action

theorem Still.silent {action : Action α} (still : Still action) : Silent action :=
  fun session => congrArg Backdrop.toSurroundings (still session)

theorem Still.scene {action : Action α} (still : Still action) : Preserves scene action :=
  fun session => congrArg Backdrop.toScene (still session)

theorem Preserves.toOutlook {action : Action α} (preserves : Preserves scene action) :
    Preserves outlook action :=
  fun session => congrArg Scene.toOutlook (preserves session)

theorem Still.outlook {action : Action α} (still : Still action) : Preserves outlook action :=
  still.scene.toOutlook

namespace Still

theorem note (call : Call) : Still (note call) := by
  refine .modify fun session => ?_
  rw [backdrop, surroundings_noting]
  rfl

theorem clearStage : Still clearStage := .modify fun _ => rfl

theorem replacePaper (ledger : Ledger) : Still (replacePaper ledger) := .modify fun _ => rfl

theorem rebase (scope : Scope) (construction : String) (rest : List String) :
    Still (rebase scope construction rest) := by
  refine .modify fun session => ?_
  unfold rebasing
  split
  · rfl
  · rfl

end Still

namespace Silent

theorem note (call : Call) : Silent (note call) := (Still.note call).silent

theorem clearStage : Silent clearStage := Still.clearStage.silent

theorem rebase (scope : Scope) (construction : String) (rest : List String) :
    Silent (rebase scope construction rest) := (Still.rebase scope construction rest).silent

theorem obey (parameter : Parameter) (arguments : List String) :
    Silent (parameter.obey arguments) :=
  .get_bind fun _ => .bind (.lift _) fun setting => .modify (surroundings_apply setting)

end Silent

/-! ## Folding, undoing and redoing -/

theorem still_fold (word : String) (call : Call)
    (step : Engine → Ledger → Except Refusal Ledger) : Still (fold word call step) := by
  intro session
  have noted := Still.note call session
  rw [on_fold]
  cases session.model with
  | none => rfl
  | some ledger =>
      cases folds : step session.engine ledger with
      | error refusal =>
          simp only [folds]
          exact noted
      | ok folded =>
          simp only [folds]
          exact noted

theorem silent_fold (word : String) (call : Call)
    (step : Engine → Ledger → Except Refusal Ledger) : Silent (fold word call step) :=
  (still_fold word call step).silent

theorem still_regionAt (word : String) (point : Planar) : Still (regionAt word point) := by
  intro session
  rw [on_regionAt]
  split
  · rfl
  · exact Still.note (.regionAt point) session

theorem still_restriction (word : String) (plane : Plane) : Still (restriction word plane) := by
  refine .get_bind fun session => ?_
  split
  · exact .pure none
  · rename_i target _
    refine .bind (still_fold word _ _) fun _ => ?_
    intro session
    rw [Action.on_map]
    exact still_regionAt word target session

theorem still_foldAlong (word : String) (plane : Plane) (operation : Operation) :
    Still (foldAlong word plane operation) :=
  .bind (still_restriction word plane) fun _ => .bind (still_fold word _ _) fun _ => Still.clearStage

theorem surroundings_repeating {step : Action Unit} (silent : Silent step) (count : Nat)
    (session : Session) : (repeating step count session).surroundings = session.surroundings := by
  induction count generalizing session with
  | zero => rfl
  | succ count induction =>
      have front := silent session
      rw [repeating]
      revert front
      rcases step.on session with ⟨_ | _, after⟩
      · exact id
      · exact fun front => (induction after).trans front

theorem surroundings_rewind (target : Nat) (session : Session) :
    (session.rewind target).surroundings = session.surroundings := by
  unfold rewind
  split
  · rfl
  · split
    · exact surroundings_repeating (silent_fold _ _ _) _ session
    · exact surroundings_repeating (silent_fold _ _ _) _ session

theorem surroundings_rewinding (depth : Option Nat) (session : Session) :
    (session.rewinding depth).surroundings = session.surroundings := by
  cases depth with
  | none => rfl
  | some depth => exact surroundings_rewind depth session

theorem surroundings_shortening (recording : Bool) (steps : Nat) (session : Session) :
    (session.shortening recording steps).surroundings = session.surroundings := by
  have dropped : (session.dropping recording steps).surroundings = session.surroundings :=
    surroundings_rewriting (shortenedHistory session.draft recording steps session.history) session
  exact (surroundings_rewind 0 (session.dropping recording steps)).trans dropped

theorem surroundings_resuming (recording : Bool) (rest : List String) (session : Session) :
    (session.resuming recording rest).surroundings = session.surroundings := by
  simp only [resuming]
  split
  · exact surroundings_rewriting (session.history ++ [Script.restore rest]) session
  · rfl

theorem surroundings_rollback (session : Session) (transaction : Transaction) :
    (session.rollback transaction).surroundings =
      { session.surroundings with access := transaction.access } := by
  have rewound := surroundings_rewinding transaction.depth (session.returning transaction.entries)
  show ({ ((session.returning transaction.entries).rewinding transaction.depth).surroundings with
    access := transaction.access } : Surroundings) = _
  rw [rewound]
  rfl

theorem surroundings_recover (session : Session) :
    session.recover.surroundings = { session.surroundings with access := session.recover.access } := by
  unfold recover
  split
  · exact surroundings_rollback session _
  · rfl

/-! ## Other commands -/

theorem still_stagedSheet (stage : Stage) : Still (stagedSheet stage) := by
  unfold stagedSheet
  split
  · exact .bind (Still.note _) fun _ => .get_bind fun _ => .pure _
  · exact .bind (Still.note _) fun _ => .get_bind fun _ => .bind (.lift _) fun _ => .pure _

theorem still_makePaper (scope : Scope) (rest : List String) : Still (makePaper scope rest) :=
  .get_bind fun session => .bind (.refuseIf _ _) fun _ =>
    .bind (still_stagedSheet session.stage) fun (_, _) =>
      .bind (Still.replacePaper _) fun _ => .bind (Still.rebase scope _ _) fun _ => Still.clearStage

/-- Opening a document leaves the whole backdrop as it is but for the color. -/
theorem uncolored_reopen (color : Color) (scope : Scope) (rest : List String) :
    Preserves (fun session => { session.backdrop with color }) (reopen scope rest) := by
  have of_still {action : Action Unit} (still : Still action) :
      Preserves (fun session => { session.backdrop with color }) action :=
    fun session => congrArg (fun backdrop => { backdrop with color }) (still session)
  exact .bind (.requiredFilename _) fun _ => .bind (of_still (.note _)) fun _ => .get_bind fun _ =>
    .get_bind fun _ => .bind (.lift _) fun _ => .bind (.modify fun _ => rfl) fun _ =>
      .bind (of_still (.replacePaper _)) fun _ => of_still (.rebase scope _ _)

theorem silent_reopen (scope : Scope) (rest : List String) : Silent (reopen scope rest) :=
  fun session => congrArg Backdrop.toSurroundings (uncolored_reopen default scope rest session)

theorem outlook_reopen (scope : Scope) (rest : List String) : Preserves outlook (reopen scope rest) :=
  fun session =>
    congrArg (fun backdrop => backdrop.toOutlook) (uncolored_reopen default scope rest session)

theorem still_loadTexture : Still loadTexture :=
  .bind (.requiredFilename _) fun _ => .get_bind fun _ => .bind (.lift _) fun _ =>
    .modify fun _ => rfl

/-- The commands that reach beyond the paper, and those that run other scripts. -/
inductive Outward : Command → Prop where
  | write (encoding : Encoding) : Outward (.write encoding)
  | diagnose : Outward .diagnose
  | elevate (request : Elevation) : Outward (.elevate request)
  | load : Outward .load
  | compile : Outward .compile
  | undo : Outward .undo

theorem still_obey {nested : Nested} {scope : Scope} {takeBack : List String → Action Unit}
    {command : Command} (inward : ¬ Outward command) (opens : command ≠ .reopen)
    (rest : List String) : Still (obey nested scope takeBack command rest) := by
  cases command with
  | new => exact still_makePaper scope rest
  | rotate =>
      exact .get_bind fun _ => .bind (.lift _) fun _ => .bind (.lift _) fun _ =>
        still_foldAlong _ _ _
  | reflect => exact .get_bind fun _ => .bind (.lift _) fun _ => still_foldAlong _ _ _
  | cut => exact .get_bind fun _ => .bind (.lift _) fun _ => still_foldAlong _ _ _
  | undo => exact absurd .undo inward
  | redo => exact .bind (still_fold _ _ _) fun _ => Still.clearStage
  | compile => exact absurd .compile inward
  | load => exact absurd .load inward
  | reopen => exact absurd rfl opens
  | loadTexture => exact still_loadTexture
  | unloadTexture => exact .modify fun _ => rfl
  | write encoding => exact absurd (.write encoding) inward
  | diagnose => exact absurd .diagnose inward
  | elevate request => exact absurd (.elevate request) inward

theorem silent_obey {nested : Nested} {scope : Scope} {takeBack : List String → Action Unit}
    {command : Command} (inward : ¬ Outward command) (rest : List String) :
    Silent (obey nested scope takeBack command rest) := by
  by_cases opens : command = .reopen
  · subst opens
    exact silent_reopen scope rest
  · exact (still_obey inward opens rest).silent

end Session

end PaperFolding
