import PaperFolding.Proofs.Session.Likeness
import PaperFolding.Proofs.Session.Setting

/-!
Statements that fold once. One that stages its own plane does the same in any session with the same
sheet, whatever else is staged there, and adds one record.
-/

namespace PaperFolding

inductive Part where
  | point
  | normal
  | angle
deriving DecidableEq, Repr

namespace Part

def Same (first second : Stage) : Part → Prop
  | point => first.point = second.point
  | normal => first.normal = second.normal
  | angle => first.angle = second.angle

end Part

def Parameter.prepares : Parameter → Part → Bool
  | .plane, .point | .plane, .normal => true
  | .planeThrough, .point | .planeThrough, .normal => true
  | .angleBisector, .point | .angleBisector, .normal => true
  | .planePoint, .point | .planeNormal, .normal | .angle, .angle => true
  | _, _ => false

theorem Parameter.target_onStage {parameter : Parameter} {setting : Setting}
    (fits : parameter.gives setting = true) (other : parameter ≠ .target) (stage : Stage) :
    (setting.onStage stage).target = stage.target := by
  cases setting
  case target =>
    cases parameter
    case target => exact absurd rfl other
    all_goals cases fits
  all_goals rfl

def Keyword.prepares (part : Part) : Keyword → Bool
  | .parameter word => word.prepares part
  | .command _ => false

def Keyword.isSetting : Keyword → Bool
  | .parameter word => word ≠ .target
  | .command _ => false

/-- Two stages without a target that hold the same of some parts. -/
structure Agree (parts : Part → Prop) (first second : Stage) : Prop where
  same : ∀ part, parts part → part.Same first second
  free : first.target = none
  free' : second.target = none

namespace Agree

variable {parts parts' : Part → Prop} {first second : Stage}

theorem mono (agree : Agree parts first second) (fewer : ∀ part, parts' part → parts part) :
    Agree parts' first second :=
  ⟨fun part held => agree.same part (fewer part held), agree.free, agree.free'⟩

theorem onStage (agree : Agree parts first second) {parameter : Parameter} {setting : Setting}
    (fits : parameter.gives setting = true) (other : parameter ≠ .target) :
    Agree (fun part => parts part ∨ parameter.prepares part = true) (setting.onStage first)
      (setting.onStage second) where
  same := by
    rintro part (held | prepared)
    · have kept := agree.same part held
      cases setting <;> cases part <;> first | exact kept | rfl
    · cases parameter <;> cases part <;> cases prepared <;> cases setting <;> first | rfl | cases fits
  free := (Parameter.target_onStage fits other first).trans agree.free
  free' := (Parameter.target_onStage fits other second).trans agree.free'

end Agree

namespace Session

def OnlySets (row : List String) : Prop :=
  ∀ word ∈ row, ∀ keyword ∈ Keyword.ofWord? word, keyword.isSetting = true

instance (row : List String) : Decidable (OnlySets row) :=
  inferInstanceAs (Decidable (∀ word ∈ row, ∀ keyword ∈ Keyword.ofWord? word, _))

def Prepares (row : List String) (part : Part) : Prop :=
  ∃ word ∈ row, ∃ keyword ∈ Keyword.ofWord? word, keyword.prepares part = true

instance (row : List String) (part : Part) : Decidable (Prepares row part) :=
  inferInstanceAs (Decidable (∃ word ∈ row, ∃ keyword ∈ Keyword.ofWord? word, _))

/-- One command that folds, along a plane and by an angle that are staged in front of it, and besides
nothing but settings. -/
structure FoldsOnce (command : Command) (before after : List String) : Prop where
  folds : command ∈ plainFolds
  sets : OnlySets before
  sets' : OnlySets after
  point : Prepares before .point
  normal : Prepares before .normal
  angle : command = .rotate → Prepares before .angle

/-! ## What is staged in front of a command -/

section Steps

variable {parts : Part → Prop} {staged : Stage → Stage → Prop} {first second : Session}
  {run run' : Command → List String → Action Unit} {scope scope' : Scope}

theorem Alike.obeySetting (alike : Alike (Agree parts) first second) {token : String}
    {rest : List String} (sets : ∀ keyword ∈ Keyword.ofWord? token, keyword.isSetting = true) :
    Mirrors (Agree fun part => parts part ∨ Prepares [token] part)
      (Session.obeyToken run scope token rest) (Session.obeyToken run' scope' token rest)
      first second := by
  refine alike.obeyToken_of (fun idle => alike.stage.mono ?_) (fun command found => ?_)
    fun parameter setting found reads => ?_
  · rintro part (held | ⟨word, among, keyword, found, prepared⟩)
    · exact held
    · rw [List.mem_singleton.1 among, Option.mem_def] at found
      cases keyword with
      | command command => cases prepared
      | parameter parameter =>
          have name : parameter.name = token := Keyword.name_of_ofWord? found
          rw [found, ← name, parameter.isFragment_name] at idle
          rcases idle with fragment | unknown
          · cases fragment
          · cases unknown
  · have setting := sets _ found
    cases setting
  · have other : parameter ≠ .target := by
      simpa [Keyword.isSetting] using sets _ found
    refine (alike.stage.onStage (Parameter.gives_of_setting reads) other).mono ?_
    rintro part (held | ⟨word, among, keyword, found', prepared⟩)
    · exact .inl held
    · rw [List.mem_singleton.1 among, Option.mem_def, found] at found'
      cases found'
      exact .inr prepared

theorem Alike.dispatch_sets (alike : Alike (Agree parts) first second) {before rest : List String}
    (sets : OnlySets before)
    (others : ∀ {first second : Session},
      Alike (Agree fun part => parts part ∨ Prepares before part) first second →
      Mirrors staged (Session.dispatch run scope rest) (Session.dispatch run' scope' rest)
        first second) :
    Mirrors staged (Session.dispatch run scope (before ++ rest))
      (Session.dispatch run' scope' (before ++ rest)) first second := by
  induction before generalizing parts first second with
  | nil =>
      refine others ⟨alike.ordinary, alike.ordinary', alike.stage.mono ?_, alike.content⟩
      rintro part (held | ⟨word, among, -⟩)
      · exact held
      · exact absurd among List.not_mem_nil
  | cons word before induction =>
      obtain ⟨here, later⟩ := List.forall_mem_cons.1 sets
      refine .bind (alike.obeySetting here) fun _ _ _ _ reached => ?_
      refine induction reached later fun alike' => others ?_
      refine ⟨alike'.ordinary, alike'.ordinary', alike'.stage.mono ?_, alike'.content⟩
      rintro part (held | ⟨other, among, prepared⟩)
      · exact .inl (.inl held)
      · rcases List.mem_cons.1 among with rfl | among
        · exact .inl (.inr ⟨other, List.mem_singleton_self other, prepared⟩)
        · exact .inr ⟨other, among, prepared⟩

/-! ## One fold -/

theorem Alike.obeyFold (alike : Alike (Agree parts) first second) {nested nested' : Nested}
    {takeBack takeBack' : List String → Action Unit} {command : Command} {rest rest' : List String}
    (folds : command ∈ plainFolds) (point : parts .point)
    (normal : parts .normal) (angle : command = .rotate → parts .angle) :
    Mirrors Cleared (Session.obey nested scope takeBack command rest)
      (Session.obey nested' scope' takeBack' command rest') first second := by
  have samePoint : first.stage.point = second.stage.point := alike.stage.same .point point
  have sameNormal : first.stage.normal = second.stage.normal := alike.stage.same .normal normal
  have plane (word : String) : first.stage.planeFor word = second.stage.planeFor word := by
    rw [Stage.planeFor, Stage.planeFor, samePoint, sameNormal]
  have target : first.stage.target = second.stage.target :=
    alike.stage.free.trans alike.stage.free'.symm
  simp only [plainFolds, List.mem_cons, List.not_mem_nil, or_false] at folds
  rcases folds with rfl | rfl | rfl
  · have sameAngle : first.stage.angle = second.stage.angle := alike.stage.same .angle (angle rfl)
    refine alike.rotate (plane _) ?_ target
    rw [Stage.foldAngle, Stage.foldAngle, sameAngle]
  · exact alike.reflect (plane _) target
  · exact alike.cut (plane _) target

theorem Alike.obeyToken_fold (alike : Alike (Agree parts) first second) {nested nested' : Nested}
    {takeBack takeBack' : List String → Action Unit} {command : Command} {rest : List String}
    (folds : command ∈ plainFolds) (point : parts .point)
    (normal : parts .normal) (angle : command = .rotate → parts .angle) :
    Mirrors Cleared
      (Session.obeyToken (Session.obey nested scope takeBack) scope command.name rest)
      (Session.obeyToken (Session.obey nested' scope' takeBack') scope' command.name rest)
      first second := by
  have free : command.access = .user := access_of_folding (List.mem_cons_of_mem _ folds)
  rw [obeyToken_command_eq, obeyToken_command_eq]
  exact alike.checkpoint_bind (alike.obeyCommand free (alike.obeyFold folds point normal angle))

theorem Alike.dispatch_onlySets (alike : Alike (Agree parts) first second) {row : List String}
    (sets : OnlySets row) :
    Mirrors (Agree fun _ => False) (Session.dispatch run scope row)
      (Session.dispatch run' scope' row) first second := by
  rw [← List.append_nil row]
  refine alike.dispatch_sets sets fun reached => .pure ?_ ()
  exact ⟨reached.ordinary, reached.ordinary', reached.stage.mono fun _ => False.elim,
    reached.content⟩

/-- A statement that folds once along its own plane does so in every session with the same sheet. -/
theorem Alike.dispatch_foldsOnce (alike : Alike (Agree parts) first second)
    {nested nested' : Nested} {takeBack takeBack' : List String → Action Unit} {command : Command}
    {before after : List String} (once : FoldsOnce command before after) :
    Mirrors (Agree fun _ => False)
      (Session.dispatch (Session.obey nested scope takeBack) scope
        (before ++ command.name :: after))
      (Session.dispatch (Session.obey nested' scope' takeBack') scope'
        (before ++ command.name :: after))
      first second := by
  refine alike.dispatch_sets once.sets fun staged => ?_
  refine .bind (staged.obeyToken_fold once.folds (.inr once.point) (.inr once.normal) fun same =>
    .inr (once.angle same)) fun _ folded folded' _ cleared => ?_
  have agree : Agree (fun _ => False) folded.stage folded'.stage := by
    rw [cleared.stage.1, cleared.stage.2]
    exact ⟨fun _ => False.elim, rfl, rfl⟩
  have bare : Alike (Agree fun _ => False) folded folded' :=
    ⟨cleared.ordinary, cleared.ordinary', agree, cleared.content⟩
  exact bare.dispatch_onlySets once.sets'

end Steps

/-! ## The record of a fold -/

section Records

variable {run : Command → List String → Action Unit} {scope : Scope} {session after : Session}

theorem dispatch_sets_cases {before rest : List String} (sets : OnlySets before)
    (free : session.stage.target = none)
    (done : (dispatch run scope (before ++ rest)).on session = (.ok (), after)) :
    ∃ reached, Beside session reached ∧ reached.stage.target = none ∧
      (dispatch run scope rest).on reached = (.ok (), after) := by
  induction before generalizing session with
  | nil => exact ⟨session, .refl session, free, done⟩
  | cons word before induction =>
      obtain ⟨here, later⟩ := List.forall_mem_cons.1 sets
      obtain ⟨_, reached, obeyed, others⟩ := ok_of_bind done
      rcases obeyToken_cases obeyed with ⟨rfl, -⟩ | ⟨parameter, setting, found, reads, ends⟩ |
        ⟨command, _, found, -⟩
      · exact induction later free others
      · obtain ⟨beside, stage⟩ := beside_setting ends
        have other : parameter ≠ .target := by
          simpa [Keyword.isSetting] using here _ found
        have free' : reached.stage.target = none := by
          rw [stage, Parameter.target_onStage (Parameter.gives_of_setting reads) other, free]
        obtain ⟨last, beside', free'', rest⟩ := induction later free' others
        exact ⟨last, beside.trans beside', free'', rest⟩
      · have setting := here _ found
        cases setting

theorem operate_model {word : String} {record : Record}
    (foldsPlainly : session.engine.FoldsPlainly)
    (done : (operate word record).on session = (.ok (), after)) :
    ∃ ledger, session.model = some ledger ∧
      after.model = some ⟨ledger.outline, ledger.journal ++ [record], []⟩ := by
  rw [operate, on_fold] at done
  cases held : session.model with
  | none =>
      rw [held] at done
      cases done
  | some ledger =>
      simp only [held, foldsPlainly.apply] at done
      cases folds : Engine.plain.apply ledger record with
      | error refusal =>
          rw [folds] at done
          cases done
      | ok folded =>
          rw [folds] at done
          cases done
          have folds : ledger.apply record = .ok folded := folds
          exact ⟨ledger, rfl, congrArg some (Ledger.eq_of_apply folds)⟩

theorem foldAlong_model {word : String} {plane : Plane} {operation : Operation}
    (foldsPlainly : session.engine.FoldsPlainly) (free : session.stage.target = none)
    (done : (foldAlong word plane operation).on session = (.ok (), after)) :
    ∃ ledger, session.model = some ledger ∧
      after.model =
        some ⟨ledger.outline, ledger.journal ++ [⟨operation, plane, none⟩], []⟩ := by
  have whole : (restriction word plane).on session = (.ok none, session) := by
    rw [restriction, on_bind_of_ok (Action.on_get session), free]
    rfl
  rw [foldAlong, on_bind_of_ok whole] at done
  obtain ⟨_, operated, operates, clears⟩ := ok_of_bind done
  obtain ⟨ledger, held, model⟩ := operate_model foldsPlainly operates
  cases clears
  exact ⟨ledger, held, model⟩

theorem dispatch_foldsOnce_model {nested : Nested} {takeBack : List String → Action Unit}
    {command : Command} {before rest : List String} (once : FoldsOnce command before rest)
    (foldsPlainly : session.engine.FoldsPlainly) (free : session.stage.target = none)
    (done : (dispatch (obey nested scope takeBack) scope (before ++ command.name :: rest)).on
      session = (.ok (), after)) :
    after.history = session.history ∧ after.engine = session.engine ∧
      ∃ ledger record, session.model = some ledger ∧
        after.model = some ⟨ledger.outline, ledger.journal ++ [record], []⟩ := by
  obtain ⟨staged, beside, free', done⟩ := dispatch_sets_cases once.sets free done
  have stagedPlainly : staged.engine.FoldsPlainly := beside.engine ▸ foldsPlainly
  obtain ⟨_, reached, obeyed, others⟩ := ok_of_bind done
  obtain ⟨folded, runs, ends⟩ := obeyToken_command obeyed
  obtain ⟨plane, operation, folds⟩ := foldAlong_of_obey once.folds runs
  obtain ⟨untold, cleared⟩ := foldAlong_frame folds
  obtain ⟨ledger, held, model⟩ := foldAlong_model stagedPlainly free' folds
  obtain ⟨applied, stage, -⟩ := beside_applied ends
  have bare : reached.stage.target = none := by
    rw [stage, cleared]
    rfl
  rw [← List.append_nil rest] at others
  obtain ⟨last, beside', -, finished⟩ := dispatch_sets_cases once.sets' bare others
  cases finished
  have whole := applied.trans beside'
  refine ⟨?_, ?_, ledger, ⟨operation, plane, none⟩, beside.model.symm.trans held, ?_⟩
  · rw [whole.history, untold.history, beside.history]
  · rw [whole.engine, untold.engine, beside.engine]
  · rw [whole.model, model]

theorem dispatch_foldsOnce_content {nested : Nested} {takeBack : List String → Action Unit}
    {command : Command} {before rest : List String} (once : FoldsOnce command before rest)
    (foldsPlainly : session.engine.FoldsPlainly) (free : session.stage.target = none)
    (done : (dispatch (obey nested scope takeBack) scope (before ++ command.name :: rest)).on
      session = (.ok (), after)) :
    after.history = session.history ∧ after.engine = session.engine ∧
      ∃ ledger record, session.model = some ledger ∧
        after.model.map Ledger.content = some (ledger.outline, ledger.journal ++ [record]) := by
  obtain ⟨history, engine, ledger, record, held, model⟩ :=
    dispatch_foldsOnce_model once foldsPlainly free done
  exact ⟨history, engine, ledger, record, held, congrArg (Option.map Ledger.content) model⟩

end Records

end Session

end PaperFolding
