import PaperFolding.Proofs.Session.Sight.Basic

/-!
Two sessions that differ in nothing but how the entries of their histories are spelled, and in what a failure
goes back to. Entries are only ever read as tokens, so whatever is done in one of them is done in the other.
-/

namespace PaperFolding

open Script

namespace Session

/-- The session without its history and without what a failure goes back to. -/
def unrecorded (session : Session) : Session :=
  { session with history := [], transaction := none }

structure Respells (first second : Session) : Prop where
  unrecorded : first.unrecorded = second.unrecorded
  history : first.history.map tokens = second.history.map tokens

/-- The action ends alike in both sessions, and if it succeeds, they are again such a pair. -/
def Indifferent {α : Type} (action : Action α) : Prop :=
  ∀ first second, Respells first second →
    Meets Respells (action.on first) (action.on second)

variable {α β γ : Type} {first second : Session}

namespace Respells

theorem reads (respells : Respells first second) (view : Session → γ)
    (blind : ∀ session : Session, view session.unrecorded = view session) :
    view first = view second := by
  rw [← blind first, ← blind second, respells.unrecorded]

/-- A change that neither looks at the history nor touches it. -/
theorem change (respells : Respells first second) (change : Session → Session)
    (unrecorded : ∀ session : Session,
      (change session.unrecorded).unrecorded = (change session).unrecorded)
    (history : ∀ session, (change session).history = session.history) :
    Respells (change first) (change second) where
  unrecorded := by rw [← unrecorded first, ← unrecorded second, respells.unrecorded]
  history := by rw [history, history, respells.history]

theorem draft (respells : Respells first second) : first.draft = second.draft :=
  respells.reads Session.draft fun _ => rfl

theorem rewriting (respells : Respells first second) {history history' : List String}
    (same : history.map tokens = history'.map tokens) :
    Respells (first.rewriting history) (second.rewriting history') :=
  ⟨respells.unrecorded, same⟩

theorem drafting (respells : Respells first second) (draft : Draft) :
    Respells { first with draft } { second with draft } :=
  respells.change (fun session => { session with draft }) (fun _ => rfl) fun _ => rfl

theorem noting (respells : Respells first second) (call : Call) :
    Respells (first.noting call) (second.noting call) :=
  respells.change (Session.noting call) (fun _ => rfl) fun _ => rfl

theorem holding (respells : Respells first second) (ledger : Ledger) :
    Respells (first.holding ledger) (second.holding ledger) :=
  respells.change (Session.holding ledger) (fun _ => rfl) fun _ => rfl

theorem withAccess (respells : Respells first second) (level : Level) :
    Respells (first.withAccess level) (second.withAccess level) :=
  respells.change (Session.withAccess level) (fun _ => rfl) fun _ => rfl

theorem access (respells : Respells first second) : first.access = second.access :=
  respells.reads Session.access fun _ => rfl

theorem settle (respells : Respells first second) : Respells first.settle second.settle :=
  respells.change Session.settle (fun _ => rfl) fun _ => rfl

end Respells

namespace Indifferent

theorem bind {action : Action α} {next : α → Action β} (front : Indifferent action)
    (others : ∀ value, Indifferent (next value)) : Indifferent (action >>= next) := by
  intro first second respells
  apply (front first second respells).bind
  intro value after after' respells
  exact others value after after' respells

theorem get_bind {next : Session → Action β}
    (blind : ∀ session : Session, next session.unrecorded = next session)
    (others : ∀ session, Indifferent (next session)) : Indifferent (get >>= next) := by
  intro first second respells
  apply Meets.get_bind
  rw [respells.reads next blind]
  exact others second first second respells

theorem lift (result : Except Fault α) : Indifferent (lift result) := by
  intro first second respells
  rw [on_lift, on_lift]
  exact .of_related rfl respells

theorem pure (value : α) : Indifferent (Pure.pure value) := lift (.ok value)

theorem throw (fault : Fault) : Indifferent (throw fault : Action α) := lift (.error fault)

theorem refuseIf (condition : Prop) [Decidable condition] (fault : Fault) :
    Indifferent (refuseIf condition fault) := by
  unfold Session.refuseIf
  split
  · exact throw fault
  · exact pure ()

theorem changing {change : Session → Session}
    (unrecorded : ∀ session : Session,
      (change session.unrecorded).unrecorded = (change session).unrecorded)
    (history : ∀ session, (change session).history = session.history) :
    Indifferent (modify change : Action Unit) := by
  intro first second respells
  exact .of_related rfl (respells.change change unrecorded history)

theorem modify {change : Session → Session}
    (keeps : ∀ {first second}, Respells first second → Respells (change first) (change second)) :
    Indifferent (modify change : Action Unit) := by
  intro first second respells
  exact .of_related rfl (keeps respells)

theorem map {action : Action α} (indifferent : Indifferent action) (change : α → β) :
    Indifferent (change <$> action) := by
  rw [← bind_pure_comp]
  exact bind indifferent fun value => pure (change value)

theorem forM {entries : List β} {action : β → Action Unit}
    (indifferent : ∀ entry, Indifferent (action entry)) :
    Indifferent (entries.forM action) := by
  induction entries with
  | nil => exact pure ()
  | cons entry entries induction => exact bind (indifferent entry) fun _ => induction

theorem atLevel {level : Level} {action : Action Unit} (indifferent : Indifferent action) :
    Indifferent (atLevel level action) := by
  intro first second respells
  have meets := indifferent _ _ (respells.withAccess level)
  rw [on_atLevel, on_atLevel, respells.access]
  exact ⟨meets.outcome, fun value done => (meets.related value done).withAccess second.access⟩

/-- Both sessions open the same sandbox. -/
theorem inSandbox (action : Action Unit) : Indifferent (inSandbox action) := by
  intro first second respells
  have same : first.sandbox = second.sandbox := respells.reads Session.sandbox fun _ => rfl
  rw [on_inSandbox, on_inSandbox, same]
  exact .of_related rfl (respells.change (closing _) (fun _ => rfl) fun _ => rfl)

end Indifferent

/-! ## Commands that run no script -/

namespace Indifferent

theorem paper (word : String) : Indifferent (paper word) := by
  apply get_bind fun _ => rfl
  intro session
  split
  · exact pure _
  · exact throw _

theorem requiredFilename (word : String) : Indifferent (requiredFilename word) := by
  apply get_bind fun _ => rfl
  intro session
  split
  · exact pure _
  · exact throw _

theorem require (level : Level) : Indifferent (require level) :=
  get_bind (fun _ => rfl) fun _ => refuseIf _ _

theorem note (call : Call) : Indifferent (note call) := modify fun respells => respells.noting call

theorem clearStage : Indifferent clearStage := changing (fun _ => rfl) fun _ => rfl

theorem replacePaper (ledger : Ledger) : Indifferent (replacePaper ledger) :=
  changing (fun _ => rfl) fun _ => rfl

theorem refusing (result : Except Refusal α) : Indifferent (refusing result) := by
  cases result with
  | ok value => exact pure value
  | error refusal => exact throw _

theorem withFiles (step : FileTree → Except Fault Unit × FileTree) :
    Indifferent (withFiles step) := by
  intro first second respells
  have files : first.world.files = second.world.files :=
    respells.reads (fun session => session.world.files) fun _ => rfl
  have on_step (session : Session) : (Session.withFiles step).on session =
      ((step session.world.files).1, { session with
        world := { session.world with files := (step session.world.files).2 } }) := rfl
  rw [on_step, on_step, files]
  exact .of_related rfl (respells.change
    (fun session => { session with world := { session.world with files := _ } }) (fun _ => rfl)
    fun _ => rfl)

/-- The entry that a rewritten history consists of is the same in both sessions. -/
theorem rebase (scope : Scope) (construction : String) (rest : List String) :
    Indifferent (rebase scope construction rest) := by
  refine modify fun respells => ?_
  unfold rebasing
  rw [respells.draft]
  split
  · exact (respells.rewriting rfl).drafting _
  · exact respells

theorem obey (parameter : Parameter) (arguments : List String) :
    Indifferent (parameter.obey arguments) := by
  apply get_bind fun _ => rfl
  intro session
  apply bind (lift _)
  intro setting
  apply changing
  all_goals
    intro session
    cases setting <;> rfl

end Indifferent

theorem indifferent_fold (word : String) (call : Call)
    (step : Engine → Ledger → Except Refusal Ledger) : Indifferent (fold word call step) :=
  .bind (.paper word) fun _ => .bind (.note call) fun _ => .get_bind (fun _ => rfl) fun _ =>
    .bind (.refusing _) fun folded => .modify fun respells => respells.holding folded

theorem indifferent_regionAt (word : String) (point : Planar) : Indifferent (regionAt word point) :=
  .bind (.paper word) fun _ => .bind (.note _) fun _ => .get_bind (fun _ => rfl) fun _ =>
    .refusing _

theorem indifferent_restriction (word : String) (plane : Plane) :
    Indifferent (restriction word plane) := by
  apply Indifferent.get_bind fun _ => rfl
  intro session
  split
  · exact .pure none
  · exact .bind (indifferent_fold word _ _) fun _ => (indifferent_regionAt word _).map some

theorem indifferent_foldAlong (word : String) (plane : Plane) (operation : Operation) :
    Indifferent (foldAlong word plane operation) :=
  .bind (indifferent_restriction word plane) fun _ =>
    .bind (indifferent_fold word _ _) fun _ => .clearStage

theorem indifferent_undoOr {otherwise : Action Unit} (indifferent : Indifferent otherwise) :
    Indifferent (undoOr otherwise) := by
  apply Indifferent.get_bind fun _ => rfl
  intro session
  refine .bind ?_ fun _ => .clearStage
  split
  · exact indifferent_fold _ _ _
  · exact indifferent

theorem indifferent_stagedSheet (stage : Stage) : Indifferent (stagedSheet stage) := by
  unfold stagedSheet
  split
  · exact .bind (.note _) fun _ => .get_bind (fun _ => rfl) fun _ => .pure _
  · exact .bind (.note _) fun _ => .get_bind (fun _ => rfl) fun _ => .bind (.lift _) fun _ =>
      .pure _

theorem indifferent_makePaper (scope : Scope) (rest : List String) :
    Indifferent (makePaper scope rest) :=
  .get_bind (fun _ => rfl) fun session => .bind (.refuseIf _ _) fun _ =>
    .bind (indifferent_stagedSheet session.stage) fun (_, _) =>
      .bind (.replacePaper _) fun _ => .bind (.rebase scope _ rest) fun _ => .clearStage

theorem indifferent_reopen (scope : Scope) (rest : List String) :
    Indifferent (reopen scope rest) :=
  .bind (.requiredFilename _) fun _ => .bind (.note _) fun _ => .get_bind (fun _ => rfl) fun _ =>
    .get_bind (fun _ => rfl) fun _ => .bind (.lift _) fun _ =>
      .bind (.changing (fun _ => rfl) fun _ => rfl) fun _ =>
        .bind (.replacePaper _) fun _ => .rebase scope _ rest

theorem indifferent_loadTexture : Indifferent loadTexture :=
  .bind (.requiredFilename _) fun _ => .get_bind (fun _ => rfl) fun _ => .bind (.lift _) fun _ =>
    .changing (fun _ => rfl) fun _ => rfl

theorem indifferent_writeDocument (encoding : Encoding) : Indifferent (writeDocument encoding) :=
  .bind (.requiredFilename _) fun _ => .get_bind (fun _ => rfl) fun _ =>
    .bind (.refuseIf _ _) fun _ => .bind (.refuseIf _ _) fun _ => .bind (.paper _) fun _ =>
      .bind (.note _) fun _ => .bind (.withFiles _) fun _ => .clearStage

theorem indifferent_elevate (request : Elevation) : Indifferent (elevate request) := by
  apply Indifferent.changing
  all_goals
    intro session
    dsimp only [unrecorded]
    split <;> rfl

/-! ## Scripts -/

def IndifferentScripts (nested : Nested) : Prop :=
  ∀ cancellable source, Indifferent (nested.load cancellable source) ∧
    Indifferent (nested.compile cancellable source)

section Scripts

variable {nested : Nested} {scope : Scope} {takeBack : List String → Action Unit}

theorem indifferent_scriptFile (word : String) : Indifferent (scriptFile word) :=
  .bind (.requiredFilename word) fun _ => .get_bind (fun _ => rfl) fun _ => .bind (.lift _) fun _ =>
    .pure _

theorem indifferent_obey (scripts : IndifferentScripts nested)
    (takesBack : ∀ rest, Indifferent (takeBack rest)) (command : Command) (rest : List String) :
    Indifferent (obey nested scope takeBack command rest) := by
  cases command with
  | new => exact indifferent_makePaper scope rest
  | rotate =>
      exact .get_bind (fun _ => rfl) fun _ => .bind (.lift _) fun _ => .bind (.lift _) fun _ =>
        indifferent_foldAlong _ _ _
  | reflect =>
      exact .get_bind (fun _ => rfl) fun _ => .bind (.lift _) fun _ => indifferent_foldAlong _ _ _
  | cut =>
      exact .get_bind (fun _ => rfl) fun _ => .bind (.lift _) fun _ => indifferent_foldAlong _ _ _
  | undo => exact indifferent_undoOr (takesBack rest)
  | redo => exact .bind (indifferent_fold _ _ _) fun _ => .clearStage
  | compile =>
      exact .bind (indifferent_scriptFile _) fun (_, source) =>
        .bind (scripts scope.cancellable source).2 fun _ => .clearStage
  | load =>
      exact .bind (indifferent_scriptFile _) fun (_, source) =>
        .bind (scripts scope.cancellable source).1 fun _ =>
          .bind (.rebase scope _ rest) fun _ => .clearStage
  | reopen => exact indifferent_reopen scope rest
  | loadTexture => exact indifferent_loadTexture
  | unloadTexture => exact .changing (fun _ => rfl) fun _ => rfl
  | write encoding => exact indifferent_writeDocument encoding
  | diagnose => exact .bind (.paper _) fun _ => .changing (fun _ => rfl) fun _ => rfl
  | elevate request => exact indifferent_elevate request

theorem indifferent_permit (command : Command) : Indifferent (permit command) := by
  apply Indifferent.bind (.require _)
  intro _
  split
  · exact .bind (.paper _) fun _ => .pure ()
  · exact .pure ()

theorem indifferent_obeyWord {run : Command → List String → Action Unit}
    (indifferent : ∀ command rest, Indifferent (run command rest)) (word : String)
    (rest : List String) : Indifferent (obeyWord run scope word rest) := by
  unfold obeyWord
  split
  · refine .bind (indifferent_permit _) fun _ => .bind (indifferent _ rest) fun _ => ?_
    split
    · exact .changing (fun _ => rfl) fun _ => rfl
    · exact .pure ()
  · refine .bind (.obey _ _) fun _ => ?_
    split
    · exact .changing (fun _ => rfl) fun _ => rfl
    · exact .pure ()
  · exact .pure ()

theorem indifferent_dispatch {run : Command → List String → Action Unit}
    (indifferent : ∀ command rest, Indifferent (run command rest)) (row : List String) :
    Indifferent (dispatch run scope row) := by
  induction row with
  | nil => exact .pure ()
  | cons token rest induction =>
      refine .bind ?_ fun _ => induction
      unfold obeyToken
      split
      · exact .pure ()
      · exact .bind (.get_bind (fun _ => rfl) fun _ => .refuseIf _ _) fun _ =>
          indifferent_obeyWord indifferent token rest

theorem indifferent_runBody (scripts : IndifferentScripts nested) (cancellable : Bool)
    (row : List String) : Indifferent (runBody nested cancellable row) :=
  indifferent_dispatch (indifferent_obey scripts fun _ => .throw _) row

/-! ## Starting over -/

theorem dropOwed_respelled {entries entries' : List String}
    (same : entries.map tokens = entries'.map tokens) (owed : Nat) :
    (dropOwed entries owed).map tokens = (dropOwed entries' owed).map tokens := by
  induction entries generalizing entries' owed with
  | nil =>
      obtain rfl : entries' = [] := List.map_eq_nil_iff.1 same.symm
      rfl
  | cons entry earlier induction =>
      obtain ⟨entry', earlier', rfl, here, others⟩ := List.map_eq_cons_iff.1 same.symm
      cases owed with
      | zero => exact same
      | succ owed =>
          have count : undoCount? entry' = undoCount? entry := by
            simp only [undoCount?, here]
          rw [dropOwed, dropOwed, count]
          split
          · exact induction others.symm _
          · exact induction others.symm _

theorem shortenedHistory_respelled (draft : Draft) (recording : Bool) (steps : Nat)
    {history history' : List String} (same : history.map tokens = history'.map tokens) :
    (shortenedHistory draft recording steps history).map tokens =
      (shortenedHistory draft recording steps history').map tokens := by
  have reversed : history.reverse.map tokens = history'.reverse.map tokens := by
    rw [List.map_reverse, List.map_reverse, same]
  have behind : history.reverse.tail.map tokens = history'.reverse.tail.map tokens := by
    rw [List.map_tail, List.map_tail, reversed]
  unfold shortenedHistory
  split
  · rw [List.map_reverse, List.map_reverse, dropOwed_respelled behind]
  · rw [List.map_reverse, List.map_reverse, dropOwed_respelled reversed]

/-- A fold that fails leaves such a pair as well. -/
theorem Respells.fold (respells : Respells first second) (word : String) (call : Call)
    (step : Engine → Ledger → Except Refusal Ledger) :
    ((fold word call step).on second).1 = ((Session.fold word call step).on first).1 ∧
      Respells ((Session.fold word call step).on first).2
        ((Session.fold word call step).on second).2 := by
  have model : first.model = second.model := respells.reads Session.model fun _ => rfl
  have engine : first.engine = second.engine := respells.reads Session.engine fun _ => rfl
  rw [on_fold, on_fold, model, engine]
  cases second.model with
  | none => exact ⟨rfl, respells⟩
  | some ledger =>
      dsimp only
      cases step second.engine ledger with
      | error refusal => exact ⟨rfl, respells.noting call⟩
      | ok folded => exact ⟨rfl, (respells.noting call).holding folded⟩

theorem Respells.repeating (respells : Respells first second) (word : String) (call : Call)
    (step : Engine → Ledger → Except Refusal Ledger) (count : Nat) :
    Respells (repeating (Session.fold word call step) count first)
      (Session.repeating (Session.fold word call step) count second) := by
  induction count generalizing first second with
  | zero => exact respells
  | succ count induction =>
      obtain ⟨outcome, related⟩ := respells.fold word call step
      rw [Session.repeating, Session.repeating]
      revert outcome related
      rcases (Session.fold word call step).on first with ⟨_ | _, after⟩
      all_goals
        rcases (Session.fold word call step).on second with ⟨_, after'⟩
        rintro ⟨⟩ related
      · exact related
      · exact induction related

theorem Respells.rewind (respells : Respells first second) (target : Nat) :
    Respells (first.rewind target) (second.rewind target) := by
  unfold Session.rewind
  rw [respells.reads Session.depth fun _ => rfl]
  split
  · exact respells
  · split
    · exact respells.repeating _ _ _ _
    · exact respells.repeating _ _ _ _

/-- What is left of the histories may be spelled in different ways as well. -/
theorem Respells.shortening (respells : Respells first second) (recording : Bool) (steps : Nat) :
    Respells (first.shortening recording steps) (second.shortening recording steps) := by
  have dropped :
      Respells (first.dropping recording steps) (second.dropping recording steps) := by
    unfold dropping
    rw [respells.draft]
    exact (respells.rewriting
      (shortenedHistory_respelled second.draft recording steps respells.history)).drafting _
  exact (dropped.rewind 0).change unstaged (fun _ => rfl) fun _ => rfl

theorem Respells.resuming (respells : Respells first second) (recording : Bool)
    (rest : List String) :
    Respells (first.resuming recording rest) (second.resuming recording rest) := by
  simp only [Session.resuming]
  split
  · refine (respells.rewriting ?_).drafting _
    rw [List.map_append, List.map_append, respells.history]
  · exact respells

theorem indifferent_replay (scripts : IndifferentScripts nested) : Indifferent (replay nested) := by
  intro first second respells
  have again (session : Session) : (replay nested).on session =
      (atLevel .dev ((session.history.map tokens).forM (runBody nested false))).on session := by
    rw [replay, on_bind_of_ok (Action.on_get session), List.forM_eq_forM, List.forM_eq_forM,
      List.forM_map]
  rw [again, again, respells.history]
  exact Indifferent.atLevel (.forM fun _ => indifferent_runBody scripts false _) first second respells

theorem indifferent_replayUndo (scripts : IndifferentScripts nested) (recording : Bool)
    (steps : Nat) (rest : List String) :
    Indifferent (replayUndo nested recording steps rest) :=
  .bind (.modify fun respells => respells.shortening recording steps) fun _ =>
    .bind (indifferent_replay scripts) fun _ =>
      .modify fun respells => respells.resuming recording rest

theorem indifferent_runRecorded (scripts : IndifferentScripts nested) (cancellable : Bool)
    (row : List String) : Indifferent (runRecorded nested cancellable row) :=
  indifferent_dispatch (indifferent_obey scripts (indifferent_replayUndo scripts true 1)) row

end Scripts

/-! ## Scripts from files -/

theorem indifferentScripts_ofDepth (depth : Nat) : IndifferentScripts (.ofDepth depth) := by
  induction depth with
  | zero => exact fun _ _ => ⟨.throw _, .throw _⟩
  | succ depth induction =>
      intro cancellable source
      rw [Nested.load_ofDepth, Nested.compile_ofDepth]
      exact ⟨.atLevel (indifferent_runBody induction cancellable _), .inSandbox _⟩

end Session

end PaperFolding
