import PaperFolding.Proofs.Ledger.Line
import PaperFolding.Proofs.Session.Conduct.Scripts
import PaperFolding.Proofs.Session.Token

/-!
Two sessions alike: same sheet, stages that agree as far as it matters, engines that fold in the same
way. What succeeds in one of them succeeds in the other, and they stay alike.
-/

namespace PaperFolding

/-- An engine that makes and folds sheets as plain ledgers are; how it undoes is left open. -/
structure Engine.FoldsPlainly (engine : Engine) : Prop where
  fromPreset : engine.fromPreset = plain.fromPreset
  fromCorners : engine.fromCorners = plain.fromCorners
  apply : engine.apply = plain.apply
  regionAt : engine.regionAt = plain.regionAt
  place : engine.place = plain.place

theorem Engine.plain_foldsPlainly : plain.FoldsPlainly := ⟨rfl, rfl, rfl, rfl, rfl⟩

theorem Engine.forgetful_foldsPlainly : forgetful.FoldsPlainly := ⟨rfl, rfl, rfl, rfl, rfl⟩

theorem Ledger.apply_of_content {ledger other folded : Ledger} {record : Record}
    (same : ledger.content = other.content) (applied : ledger.apply record = .ok folded) :
    ∃ folded', other.apply record = .ok folded' ∧ folded.content = folded'.content := by
  unfold apply at applied ⊢
  obtain ⟨outline, journal⟩ := Prod.mk.inj same
  cases refused : refusal? record with
  | some refusal =>
      rw [refused] at applied
      cases applied
  | none =>
      rw [refused] at applied
      cases applied
      exact ⟨_, rfl, by simp only [content, outline, journal]⟩

namespace Session

/-- A session that folds plainly and that nobody watches. -/
structure Ordinary (session : Session) : Prop where
  foldsPlainly : session.engine.FoldsPlainly
  unwatched : session.world.watch.active = false
  unstopped : session.world.watch.stopped = false

theorem note_watch {world : World} (unwatched : world.watch.active = false) (call : Call) :
    (world.note call).watch = world.watch := by
  rw [World.note_of_unexpired (World.expires_of_inactive unwatched)]

namespace Ordinary

theorem beside {before after : Session} (ordinary : Ordinary before) (beside : Beside before after) :
    Ordinary after where
  foldsPlainly := beside.engine ▸ ordinary.foldsPlainly
  unwatched := beside.watch ▸ ordinary.unwatched
  unstopped := beside.watch ▸ ordinary.unstopped

theorem noting {session : Session} (ordinary : Ordinary session) (call : Call) :
    Ordinary (session.noting call) where
  foldsPlainly := ordinary.foldsPlainly
  unwatched := by
    rw [Session.noting, note_watch ordinary.unwatched]
    exact ordinary.unwatched
  unstopped := by
    rw [Session.noting, note_watch ordinary.unwatched]
    exact ordinary.unstopped

theorem same {before after : Session} (ordinary : Ordinary before)
    (engine : after.engine = before.engine) (world : after.world = before.world) :
    Ordinary after where
  foldsPlainly := engine ▸ ordinary.foldsPlainly
  unwatched := world ▸ ordinary.unwatched
  unstopped := world ▸ ordinary.unstopped

theorem rebasing {session : Session} (ordinary : Ordinary session) (scope : Scope)
    (construction : String) (rest : List String) :
    Ordinary (session.rebasing scope construction rest) := by
  unfold Session.rebasing
  split
  · exact ordinary.same rfl rfl
  · exact ordinary

end Ordinary

theorem on_checkpoint_of_unstopped {session : Session}
    (unstopped : session.world.watch.stopped = false) (scope : Scope) :
    (checkpoint scope).on session = (.ok (), session) := by
  simp [unstopped]

theorem on_checkpoint_of_ordinary {session : Session} (ordinary : Ordinary session)
    (scope : Scope) :
    (checkpoint scope).on session = (.ok (), session) :=
  on_checkpoint_of_unstopped ordinary.unstopped scope

def ordinaryConduct : Conduct where
  leads before after := Ordinary before → Ordinary after
  permits command := command ≠ .compile ∧ command ≠ .undo
  refl _ := id
  trans earlier later := later ∘ earlier
  beside beside ordinary := ordinary.beside beside
  noting call _ ordinary := ordinary.noting call
  applying _ _ ordinary := ordinary.same rfl rfl
  undoing _ _ _ _ _ _ ordinary := ordinary.same rfl rfl
  redoing _ _ _ _ _ _ ordinary := ordinary.same rfl rfl
  replacing _ _ ordinary := ordinary.same rfl rfl
  recorded := True
  rewriting _ _ _ _ ordinary := ordinary.same rfl rfl
  closing permitted := absurd rfl permitted.1
  replaying permitted := absurd rfl permitted.2

/-- Two ordinary sessions with the same sheet, whose stages agree in a given way. -/
structure Alike (staged : Stage → Stage → Prop) (first second : Session) : Prop where
  ordinary : Ordinary first
  ordinary' : Ordinary second
  stage : staged first.stage second.stage
  content : first.model.map Ledger.content = second.model.map Ledger.content

def Cleared (first second : Stage) : Prop := first = .empty ∧ second = .empty

/-- What the action makes of the first session, the other action makes of the second, if it succeeds. -/
def Mirrors {α : Type} (staged : Stage → Stage → Prop) (action action' : Action α)
    (first second : Session) : Prop :=
  ∀ value after, action.on first = (.ok value, after) →
    ∃ after', action'.on second = (.ok value, after') ∧ Alike staged after after'

section Steps

variable {α β : Type} {staged staged' : Stage → Stage → Prop} {first second : Session}

namespace Mirrors

theorem bind {action action' : Action α} {next next' : α → Action β}
    (mirrors : Mirrors staged action action' first second)
    (others : ∀ value after after', action.on first = (.ok value, after) →
      Alike staged after after' → Mirrors staged' (next value) (next' value) after after') :
    Mirrors staged' (action >>= next) (action' >>= next') first second := by
  intro value after done
  obtain ⟨middle, reached, front, back⟩ := ok_of_bind done
  obtain ⟨reached', front', alike⟩ := mirrors middle reached front
  obtain ⟨after', back', alike'⟩ := others middle reached reached' front alike value after back
  exact ⟨after', (on_bind_of_ok front').trans back', alike'⟩

theorem get_bind {next next' : Session → Action β}
    (mirrors : Mirrors staged (next first) (next' second) first second) :
    Mirrors staged (get >>= next) (get >>= next') first second := by
  intro value after done
  exact mirrors value after done

theorem lift (alike : Alike staged first second) (result : Except Fault α) :
    Mirrors staged (lift result) (lift result) first second := by
  intro value after done
  rw [on_lift] at done
  cases done
  exact ⟨second, by rw [on_lift], alike⟩

theorem pure (alike : Alike staged first second) (value : α) :
    Mirrors staged (Pure.pure value) (Pure.pure value) first second :=
  lift alike (.ok value)

theorem lift_bind {result : Except Fault α} {next next' : α → Action β}
    (mirrors : ∀ value, Mirrors staged (next value) (next' value) first second) :
    Mirrors staged (Session.lift result >>= next) (Session.lift result >>= next') first second := by
  cases result with
  | error fault =>
      intro value after done
      cases done
  | ok value => exact mirrors value

theorem refuseIf_bind {condition : Prop} [Decidable condition] {fault : Fault}
    {next next' : Unit → Action β} (mirrors : Mirrors staged (next ()) (next' ()) first second) :
    Mirrors staged (Session.refuseIf condition fault >>= next)
      (Session.refuseIf condition fault >>= next') first second := by
  unfold Session.refuseIf
  split
  · intro value after done
    cases done
  · exact mirrors

theorem mono {action action' : Action α} (mirrors : Mirrors staged action action' first second)
    (weaker : ∀ stage stage', staged stage stage' → staged' stage stage') :
    Mirrors staged' action action' first second := by
  intro value after done
  obtain ⟨after', done', alike⟩ := mirrors value after done
  exact ⟨after', done', alike.ordinary, alike.ordinary', weaker _ _ alike.stage, alike.content⟩

theorem modify {change change' : Session → Session}
    (alike : Alike staged (change first) (change' second)) :
    Mirrors staged (modify change : Action Unit) (modify change') first second := by
  intro value after done
  cases done
  exact ⟨_, rfl, alike⟩

end Mirrors

namespace Alike

theorem noting (alike : Alike staged first second) (call call' : Call) :
    Alike staged (first.noting call) (second.noting call') :=
  ⟨alike.ordinary.noting call, alike.ordinary'.noting call', alike.stage, alike.content⟩

theorem holding (alike : Alike staged first second) {ledger ledger' : Ledger}
    (same : ledger.content = ledger'.content) :
    Alike staged (first.holding ledger) (second.holding ledger') :=
  ⟨alike.ordinary.same rfl rfl, alike.ordinary'.same rfl rfl, alike.stage, congrArg some same⟩

theorem beside (alike : Alike staged first second) {after after' : Session}
    (beside : Beside first after) (beside' : Beside second after')
    (stage : staged' after.stage after'.stage) : Alike staged' after after' where
  ordinary := alike.ordinary.beside beside
  ordinary' := alike.ordinary'.beside beside'
  stage := stage
  content := by rw [beside.model, beside'.model, alike.content]

theorem clearStage (alike : Alike staged first second) :
    Mirrors Cleared clearStage clearStage first second :=
  .modify (alike.beside ⟨rfl, rfl, rfl, rfl, rfl, rfl⟩ ⟨rfl, rfl, rfl, rfl, rfl, rfl⟩ ⟨rfl, rfl⟩)

theorem held (alike : Alike staged first second) {ledger : Ledger}
    (held : first.model = some ledger) :
    ∃ ledger', second.model = some ledger' ∧ ledger.content = ledger'.content := by
  have content := alike.content
  rw [held] at content
  cases held' : second.model with
  | none =>
      rw [held'] at content
      cases content
  | some ledger' =>
      rw [held'] at content
      exact ⟨ledger', rfl, Option.some.inj content⟩

theorem operate (alike : Alike staged first second) (word : String) (record : Record) :
    Mirrors staged (operate word record) (operate word record) first second := by
  intro value after done
  simp only [Session.operate, on_fold] at done ⊢
  cases held : first.model with
  | none =>
      rw [held] at done
      cases done
  | some ledger =>
      obtain ⟨ledger', held', same⟩ := alike.held held
      rw [held] at done
      simp only [alike.ordinary.foldsPlainly.apply] at done
      cases folds : Engine.plain.apply ledger record with
      | error refusal =>
          rw [folds] at done
          cases done
      | ok folded =>
          rw [folds] at done
          cases done
          obtain ⟨folded', folds', content⟩ := Ledger.apply_of_content same folds
          have folds' : Engine.plain.apply ledger' record = .ok folded' := folds'
          refine ⟨(second.noting (.operate record)).holding folded', ?_,
            (alike.noting _ _).holding content⟩
          simp only [held', alike.ordinary'.foldsPlainly.apply, folds']

theorem regionAt (alike : Alike staged first second) (word : String) (point : Planar) :
    Mirrors staged (regionAt word point) (regionAt word point) first second := by
  intro value after done
  rw [on_regionAt] at done ⊢
  cases held : first.model with
  | none =>
      rw [held] at done
      cases done
  | some ledger =>
      obtain ⟨ledger', held', same⟩ := alike.held held
      have lies : Engine.plain.regionAt ledger point = Engine.plain.regionAt ledger' point := by
        have outline : ledger.outline = ledger'.outline := (Prod.mk.inj same).1
        simp only [Engine.plain, Ledger.regionAt, outline]
      rw [held, alike.ordinary.foldsPlainly.regionAt] at done
      simp only [lies] at done
      rw [held', alike.ordinary'.foldsPlainly.regionAt]
      obtain ⟨found, rfl⟩ := Prod.mk.inj done
      exact ⟨_, Prod.ext found rfl, alike.noting _ _⟩

theorem restriction (alike : Alike staged first second) (word : String) (plane : Plane)
    (target : first.stage.target = second.stage.target) :
    Mirrors staged (restriction word plane) (restriction word plane) first second := by
  refine .get_bind ?_
  rw [target]
  cases second.stage.target with
  | none => exact .lift alike (.ok none)
  | some point =>
      refine .bind (alike.operate word _) fun _ after after' _ alike' => ?_
      intro value reached done
      rw [Action.on_map] at done
      cases lies : ((Session.regionAt word point).on after).1 with
      | error fault =>
          rw [lies] at done
          cases done
      | ok region =>
          obtain ⟨reached', lies', alike''⟩ :=
            alike'.regionAt word point region _ (Prod.ext lies rfl)
          rw [lies] at done
          cases done
          refine ⟨reached', ?_, alike''⟩
          rw [Action.on_map, lies']
          rfl

theorem foldAlong (alike : Alike staged first second) (word : String) (plane : Plane)
    (operation : Operation) (target : first.stage.target = second.stage.target) :
    Mirrors Cleared (foldAlong word plane operation) (foldAlong word plane operation) first second :=
  .bind (alike.restriction word plane target) fun _ _ _ _ restricted =>
    .bind (restricted.operate word _) fun _ _ _ _ operated => operated.clearStage

theorem rotate (alike : Alike staged first second)
    (plane : first.stage.planeFor Command.rotate.name = second.stage.planeFor Command.rotate.name)
    (angle : first.stage.foldAngle = second.stage.foldAngle)
    (target : first.stage.target = second.stage.target) :
    Mirrors Cleared rotate rotate first second := by
  refine .get_bind ?_
  dsimp only
  rw [plane, angle]
  exact .lift_bind fun _ => .lift_bind fun _ => alike.foldAlong _ _ _ target

theorem reflect (alike : Alike staged first second)
    (plane : first.stage.planeFor Command.reflect.name = second.stage.planeFor Command.reflect.name)
    (target : first.stage.target = second.stage.target) :
    Mirrors Cleared reflect reflect first second := by
  refine .get_bind ?_
  rw [plane]
  exact .lift_bind fun _ => alike.foldAlong _ _ _ target

theorem cut (alike : Alike staged first second)
    (plane : first.stage.planeFor Command.cut.name = second.stage.planeFor Command.cut.name)
    (target : first.stage.target = second.stage.target) :
    Mirrors Cleared cut cut first second := by
  refine .get_bind ?_
  rw [plane]
  exact .lift_bind fun _ => alike.foldAlong _ _ _ target

theorem stagedSheet (alike : Alike staged first second) (stage : Stage) :
    Mirrors staged (stagedSheet stage) (stagedSheet stage) first second := by
  unfold Session.stagedSheet
  split
  · rename_i preset _
    refine .bind (.modify (alike.noting (.preset preset) _)) fun _ _ _ _ noted => .get_bind ?_
    rw [noted.ordinary.foldsPlainly.fromPreset, noted.ordinary'.foldsPlainly.fromPreset]
    exact .pure noted _
  · refine .bind (.modify (alike.noting (.corners stage.corners) _)) fun _ _ _ _ noted =>
      .get_bind ?_
    rw [noted.ordinary.foldsPlainly.fromCorners, noted.ordinary'.foldsPlainly.fromCorners]
    exact .lift_bind fun ledger => .pure noted _

theorem replacing (alike : Alike staged first second) (ledger : Ledger) :
    Alike staged (first.replacing ledger) (second.replacing ledger) :=
  ⟨alike.ordinary.same rfl rfl, alike.ordinary'.same rfl rfl, alike.stage, rfl⟩

theorem rebasing (alike : Alike staged first second) (scope scope' : Scope)
    (construction construction' : String) (rest rest' : List String) :
    Alike staged (first.rebasing scope construction rest)
      (second.rebasing scope' construction' rest') where
  ordinary := alike.ordinary.rebasing scope construction rest
  ordinary' := alike.ordinary'.rebasing scope' construction' rest'
  stage := by
    have kept (session : Session) (scope : Scope) (construction : String) (rest : List String) :
        (session.rebasing scope construction rest).stage = session.stage := by
      unfold Session.rebasing
      split <;> rfl
    rw [kept, kept]
    exact alike.stage
  content := by
    have kept (session : Session) (scope : Scope) (construction : String) (rest : List String) :
        (session.rebasing scope construction rest).model = session.model := by
      unfold Session.rebasing
      split <;> rfl
    rw [kept, kept]
    exact alike.content

theorem makePaper (alike : Alike Eq first second) (scope scope' : Scope) (rest rest' : List String) :
    Mirrors Cleared (makePaper scope rest) (makePaper scope' rest') first second := by
  refine .get_bind ?_
  dsimp only
  rw [alike.stage]
  refine .refuseIf_bind (.bind (alike.stagedSheet second.stage) fun (ledger, _) _ _ _ staged => ?_)
  refine .bind (.modify (staged.replacing ledger)) fun _ _ _ _ replaced => ?_
  exact .bind (.modify (replaced.rebasing scope scope' _ _ rest rest')) fun _ _ _ _ rebased =>
    rebased.clearStage

theorem placing (alike : Alike staged first second) : first.placing = second.placing := by
  funext point
  have content := alike.content
  have place (session : Session) (ordinary : Ordinary session) :
      session.placing point = (session.model.map Ledger.content).map fun _ => point.raise .zero := by
    rw [Session.placing, ordinary.foldsPlainly.place, Option.map_map]
    rfl
  rw [place first alike.ordinary, place second alike.ordinary', content]

theorem obey (alike : Alike staged first second) (parameter : Parameter) (arguments : List String)
    (stages : ∀ setting, parameter.setting first.placing arguments = .ok setting →
      staged' (setting.onStage first.stage) (setting.onStage second.stage)) :
    Mirrors staged' (parameter.obey arguments) (parameter.obey arguments) first second := by
  intro value after done
  rw [Parameter.on_obey] at done
  cases reads : parameter.setting first.placing arguments with
  | error fault =>
      rw [reads] at done
      cases done
  | ok setting =>
      rw [reads] at done
      cases done
      refine ⟨setting.apply second, ?_, ?_⟩
      · rw [Parameter.on_obey, ← alike.placing, reads]
      · refine alike.beside (beside_apply setting first) (beside_apply setting second) ?_
        rw [setting.stage_apply, setting.stage_apply]
        exact stages setting reads

theorem idle (alike : Alike staged first second) {action action' : Action Unit}
    (idle : ∀ session, ∃ after, action.on session = (.ok (), after) ∧ Beside session after ∧
      after.stage = session.stage)
    (idle' : ∀ session, ∃ after, action'.on session = (.ok (), after) ∧ Beside session after ∧
      after.stage = session.stage) : Mirrors staged action action' first second := by
  intro value reached done
  obtain ⟨after, ends, beside, stage⟩ := idle first
  obtain ⟨after', ends', beside', stage'⟩ := idle' second
  rw [ends] at done
  cases done
  refine ⟨after', ends', alike.beside beside beside' ?_⟩
  rw [stage, stage']
  exact alike.stage

end Alike

theorem idle_modify_if (condition : Prop) [Decidable condition] {change : Session → Session}
    {session : Session} (beside : Beside session (change session))
    (stage : (change session).stage = session.stage) :
    ∃ after, (if condition then modify change else pure () : Action Unit).on session =
        (.ok (), after) ∧
      Beside session after ∧ after.stage = session.stage := by
  split
  · exact ⟨change session, rfl, beside, stage⟩
  · exact ⟨session, rfl, .refl session, rfl⟩

theorem idle_remember (condition : Prop) [Decidable condition] (word : String)
    (taken : List String) (session : Session) :
    ∃ after, (if condition then remember word taken else pure ()).on session = (.ok (), after) ∧
      Beside session after ∧ after.stage = session.stage :=
  idle_modify_if condition ⟨rfl, rfl, rfl, rfl, rfl, rfl⟩ rfl

theorem idle_applied (condition : Prop) [Decidable condition] (session : Session) :
    ∃ after, (if condition then modify applying else pure () : Action Unit).on session =
        (.ok (), after) ∧
      Beside session after ∧ after.stage = session.stage :=
  idle_modify_if condition ⟨rfl, rfl, rfl, rfl, rfl, rfl⟩ rfl

namespace Alike

theorem obeyParameter (alike : Alike staged first second) (scope scope' : Scope)
    (parameter : Parameter) (rest : List String)
    (stages : ∀ setting,
      parameter.setting first.placing ((taken rest).map Script.argument) = .ok setting →
      staged' (setting.onStage first.stage) (setting.onStage second.stage)) :
    Mirrors staged' (obeyParameter scope parameter rest) (obeyParameter scope' parameter rest)
      first second := by
  exact .bind (alike.obey parameter _ stages) fun _ _ _ _ obeyed =>
    obeyed.idle (idle_remember _ _ _) (idle_remember _ _ _)

theorem checkpoint_bind (alike : Alike staged first second) {scope scope' : Scope}
    {next next' : Unit → Action β} (mirrors : Mirrors staged' (next ()) (next' ()) first second) :
    Mirrors staged' (checkpoint scope >>= next) (checkpoint scope' >>= next') first second := by
  intro value after done
  rw [on_bind_of_ok (on_checkpoint_of_ordinary alike.ordinary scope)] at done
  rw [on_bind_of_ok (on_checkpoint_of_ordinary alike.ordinary' scope')]
  exact mirrors value after done

theorem permit_bind (alike : Alike staged first second) {command : Command}
    (free : command.access = .user) {next next' : Unit → Action β}
    (mirrors : Mirrors staged' (next ()) (next' ()) first second) :
    Mirrors staged' (permit command >>= next) (permit command >>= next') first second := by
  have absent : first.model.isNone = second.model.isNone := by
    have same := congrArg Option.isNone alike.content
    simpa using same
  have same : objection? command first = objection? command second := by
    have bound (session : Session) : ¬ session.access < command.access := by
      rw [free]
      exact Nat.not_lt_zero _
    rw [objection?, objection?, if_neg (bound first), if_neg (bound second), absent]
  intro value after done
  obtain ⟨granted, reached, permitted, rest⟩ := ok_of_bind done
  rw [on_permit, same] at permitted
  obtain ⟨free, rfl⟩ := Prod.mk.inj permitted
  have permitted' : (permit command).on second = (.ok granted, second) := by
    rw [on_permit, free]
  rw [on_bind_of_ok permitted']
  exact mirrors value after rest

end Alike

namespace Alike

theorem obeyCommand (alike : Alike staged first second)
    {run run' : Command → List String → Action Unit} {scope scope' : Scope} {command : Command}
    {rest rest' : List String} (free : command.access = .user)
    (mirrors : Mirrors staged' (run command rest) (run' command rest') first second) :
    Mirrors staged' (obeyCommand run scope command rest) (obeyCommand run' scope' command rest')
      first second :=
  alike.permit_bind free (.bind mirrors fun _ _ _ _ obeyed =>
    obeyed.idle (idle_applied _) (idle_applied _))

theorem obeyToken_of (alike : Alike staged first second)
    {run run' : Command → List String → Action Unit} {scope scope' : Scope} {token : String}
    {rest : List String}
    (keeps : Script.isFragment token = true ∨ Keyword.ofWord? token = none →
      staged' first.stage second.stage)
    (commands : ∀ command, Keyword.ofWord? token = some (.command command) →
      Mirrors staged' (Session.obeyCommand run scope command rest)
        (Session.obeyCommand run' scope' command rest) first second)
    (settings : ∀ parameter setting, Keyword.ofWord? token = some (.parameter parameter) →
      parameter.setting first.placing ((taken rest).map Script.argument) = .ok setting →
      staged' (setting.onStage first.stage) (setting.onStage second.stage)) :
    Mirrors staged' (obeyToken run scope token rest) (obeyToken run' scope' token rest)
      first second := by
  have kept (idle : Script.isFragment token = true ∨ Keyword.ofWord? token = none) :
      Alike staged' first second :=
    alike.beside (.refl first) (.refl second) (keeps idle)
  unfold Session.obeyToken
  split
  · rename_i fragment
    exact .pure (kept (.inl fragment)) ()
  · refine alike.checkpoint_bind ?_
    unfold obeyWord
    split
    · rename_i command found
      exact commands command found
    · rename_i parameter found
      exact alike.obeyParameter scope scope' parameter rest fun setting reads =>
        settings parameter setting found reads
    · rename_i unknown
      exact .pure (kept (.inr unknown)) ()

theorem obeyFolding (alike : Alike Eq first second) {nested nested' : Nested} {scope scope' : Scope}
    {takeBack takeBack' : List String → Action Unit} {command : Command} {rest rest' : List String}
    (folds : command ∈ foldingCommands) :
    Mirrors Cleared (Session.obey nested scope takeBack command rest)
      (Session.obey nested' scope' takeBack' command rest') first second := by
  have plane (word : String) : first.stage.planeFor word = second.stage.planeFor word := by
    rw [alike.stage]
  have angle : first.stage.foldAngle = second.stage.foldAngle := by rw [alike.stage]
  have target : first.stage.target = second.stage.target := by rw [alike.stage]
  simp only [foldingCommands, plainFolds, List.mem_cons, List.not_mem_nil, or_false] at folds
  rcases folds with rfl | rfl | rfl | rfl
  · exact alike.makePaper scope scope' rest rest'
  · exact alike.rotate (plane _) angle target
  · exact alike.reflect (plane _) target
  · exact alike.cut (plane _) target

theorem obeyToken (alike : Alike Eq first second) {nested nested' : Nested} {scope scope' : Scope}
    {takeBack takeBack' : List String → Action Unit} {token : String} {rest : List String}
    (folds : ∀ command, Keyword.ofWord? token = some (.command command) →
      command ∈ foldingCommands) :
    Mirrors Eq (obeyToken (Session.obey nested scope takeBack) scope token rest)
      (obeyToken (Session.obey nested' scope' takeBack') scope' token rest) first second := by
  refine alike.obeyToken_of (fun _ => alike.stage) (fun command found => ?_) fun _ setting _ _ => ?_
  · refine Mirrors.mono (alike.obeyCommand (access_of_folding (folds command found))
      (alike.obeyFolding (folds command found))) ?_
    exact fun _ _ cleared => cleared.1.trans cleared.2.symm
  · rw [alike.stage]

theorem dispatch (alike : Alike Eq first second) {nested nested' : Nested} {scope scope' : Scope}
    {takeBack takeBack' : List String → Action Unit} {row : List String} (folds : OnlyFolds row) :
    Mirrors Eq (dispatch (Session.obey nested scope takeBack) scope row)
      (dispatch (Session.obey nested' scope' takeBack') scope' row) first second := by
  induction row generalizing first second with
  | nil => exact .pure alike ()
  | cons token rest induction =>
      obtain ⟨here, others⟩ := List.forall_mem_cons.1 folds
      exact .bind (alike.obeyToken here) fun _ _ _ _ reached => induction reached others

end Alike

end Steps

end Session

end PaperFolding
