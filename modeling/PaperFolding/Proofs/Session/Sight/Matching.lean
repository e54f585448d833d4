import PaperFolding.Proofs.Session.Outlook
import PaperFolding.Proofs.Session.Sight.Scripts

/-!
Two sessions that resemble each other and have the same camera and the same locale. No command looks at these
two, so they stay the same with everything that can be seen, whatever becomes of the rest.
-/

namespace PaperFolding

namespace Session

structure Matching (sight : Sight) (first second : Session) : Prop where
  resembles : Resembles sight first second
  camera : first.camera = second.camera
  locale : first.locale = second.locale

/-- The action ends alike in sessions that match, and if it succeeds, they match again. -/
def Attuned {α : Type} (sight : Sight) (action : Action α) : Prop :=
  ∀ first second, Matching sight first second →
    Meets (Matching sight) (action.on first) (action.on second)

variable {sight : Sight} {α β : Type} {first second : Session}

namespace Matching

/-- What leaves the camera and the locale alone keeps sessions matching that it leaves alike. -/
theorem of_preserves {sight' : Sight} {action action' : Action α}
    (matching : Matching sight first second)
    (meets : Meets (Resembles sight') (action.on first) (action'.on second))
    (preserves : Preserves outlook action) (preserves' : Preserves outlook action') :
    Meets (Matching sight') (action.on first) (action'.on second) := by
  refine ⟨meets.outcome, fun value done => ⟨meets.related value done, ?_, ?_⟩⟩
  · have camera := congrArg Outlook.camera (preserves first)
    have camera' := congrArg Outlook.camera (preserves' second)
    exact camera.trans (matching.camera.trans camera'.symm)
  · have locale := congrArg Outlook.locale (preserves first)
    have locale' := congrArg Outlook.locale (preserves' second)
    exact locale.trans (matching.locale.trans locale'.symm)

theorem trans {third : Session} (matching : Matching sight first second)
    (matching' : Matching sight second third) : Matching sight first third :=
  ⟨matching.resembles.trans matching'.resembles, matching.camera.trans matching'.camera,
    matching.locale.trans matching'.locale⟩

theorem trans_meets {run run' run'' : Except Fault α × Session}
    (meets : Meets (Matching sight) run run') (meets' : Meets (Matching sight) run' run'') :
    Meets (Matching sight) run run'' where
  outcome := meets'.outcome.trans meets.outcome
  related value done :=
    (meets.related value done).trans (meets'.related value (meets.outcome.trans done))

theorem apply (matching : Matching sight first second) (setting : Setting) :
    Matching sight (setting.apply first) (setting.apply second) where
  resembles := matching.resembles.apply setting
  camera := by
    cases setting with
    | camera view => rfl
    | _ => exact matching.camera
  locale := by
    cases setting with
    | locale place => rfl
    | _ => exact matching.locale

theorem withAccess (matching : Matching sight first second) {level level' : Level}
    (same : level = level') : Matching sight (first.withAccess level) (second.withAccess level') :=
  ⟨matching.resembles.withAccess same, matching.camera, matching.locale⟩

theorem settle (matching : Matching sight first second) :
    Matching sight first.settle second.settle :=
  ⟨matching.resembles.settle, matching.camera, matching.locale⟩

end Matching

namespace Attuned

theorem of_blind {action : Action α} (blind : Blind sight action)
    (preserves : Preserves outlook action) : Attuned sight action :=
  fun first second matching =>
    matching.of_preserves (blind first second matching.resembles) preserves preserves

theorem bind {action : Action α} {next : α → Action β} (front : Attuned sight action)
    (others : ∀ value, Attuned sight (next value)) : Attuned sight (action >>= next) := by
  intro first second matching
  apply (front first second matching).bind
  intro value after after' matching
  exact others value after after' matching

theorem pure (value : α) : Attuned sight (Pure.pure value) := of_blind (.pure value) (.pure value)

theorem atLevel {level : Level} {action : Action Unit} (attuned : Attuned sight action) :
    Attuned sight (atLevel level action) := by
  intro first second matching
  have meets := attuned _ _ (matching.withAccess (Eq.refl level))
  rw [on_atLevel, on_atLevel]
  exact ⟨meets.outcome,
    fun value done => (meets.related value done).withAccess matching.resembles.access⟩

end Attuned

section Scripts

variable {nested : Nested} {scope : Scope} {takeBack : List String → Action Unit}
  {command : Command} {rest : List String}

theorem attuned_obeyParameter (seesPaper : sight.paper = true) (parameter : Parameter)
    (rest : List String) : Attuned sight (obeyParameter scope parameter rest) := by
  refine .bind ?_ fun _ => ?_
  · intro first second matching
    have placing : first.placing = second.placing := by
      unfold Session.placing
      rw [matching.resembles.model seesPaper, matching.resembles.engine]
    rw [Parameter.on_obey, Parameter.on_obey, placing]
    cases parameter.setting second.placing ((taken rest).map Script.argument) with
    | error fault => exact ⟨rfl, nofun⟩
    | ok setting => exact .of_related rfl (matching.apply setting)
  · split
    · intro first second matching
      exact .of_related rfl
        ⟨matching.resembles.remembering _ _, matching.camera, matching.locale⟩
    · exact .pure ()

theorem attuned_obeyCommand {run : Command → List String → Action Unit}
    (admits : sight.admits command = true) (attuned : Attuned sight (run command rest)) :
    Attuned sight (obeyCommand run scope command rest) := by
  refine .bind (.of_blind (blind_permit admits) (.looking (looks_permit command))) fun _ =>
    .bind attuned fun _ => ?_
  split
  · exact .of_blind (.modify Resembles.applying) (.modify fun _ => rfl)
  · exact .pure ()

theorem attuned_obeyToken {run : Command → List String → Action Unit} {token : String}
    (seesPaper : sight.paper = true) (seesColor : sight.color = true)
    (attuned : ∀ command, Keyword.ofWord? token = some (.command command) →
      Attuned sight (run command rest)) :
    Attuned sight (obeyToken run scope token rest) := by
  unfold obeyToken
  split
  · exact .pure ()
  · refine .bind (.of_blind (blind_checkpoint scope) (.looking (looks_checkpoint scope))) fun _ => ?_
    unfold obeyWord
    split
    · rename_i command found
      exact attuned_obeyCommand (Sight.admits_of_seen seesPaper seesColor command)
        (attuned command found)
    · exact attuned_obeyParameter seesPaper _ rest
    · exact .pure ()

theorem attuned_dispatch {run : Command → List String → Action Unit} {row : List String}
    (seesPaper : sight.paper = true) (seesColor : sight.color = true)
    (attuned : ∀ word ∈ row, ∀ command, Keyword.ofWord? word = some (.command command) →
      ∀ rest, Attuned sight (run command rest)) :
    Attuned sight (dispatch run scope row) := by
  induction row with
  | nil => exact .pure ()
  | cons token rest induction =>
      obtain ⟨here, others⟩ := List.forall_mem_cons.1 attuned
      exact .bind (attuned_obeyToken seesPaper seesColor fun command found => here command found rest)
        fun _ => induction others

/-- What runs scripts from files, seen by what it does to sessions that match. -/
structure AttunedScripts (nested : Nested) : Prop where
  blind : BlindScripts nested
  load : ∀ {sight : Sight}, sight.paper = true → sight.color = true → ∀ cancellable source,
    Attuned sight (nested.load cancellable source)
  compile : ∀ cancellable source, Preserves scene (nested.compile cancellable source)

theorem attuned_obey (scripts : AttunedScripts nested) (seesPaper : sight.paper = true)
    (seesColor : sight.color = true)
    (takesBack : command = .undo → ∀ rest, Blind sight (takeBack rest) ∧
      Preserves scene (takeBack rest)) (rest : List String) :
    Attuned sight (obey nested scope takeBack command rest) := by
  by_cases loads : command = .load
  · subst loads
    exact .bind (.of_blind (blind_scriptFile _) (scene_scriptFile _).toOutlook) fun (_, source) =>
      .bind (scripts.load seesPaper seesColor scope.cancellable source) fun _ =>
        .bind (.of_blind (.rebase scope _ rest) (Still.rebase scope _ rest).outlook) fun _ =>
          .of_blind .clearStage Still.clearStage.outlook
  · by_cases undoes : command = .undo
    · subst undoes
      have otherwise := takesBack rfl rest
      exact .of_blind (blind_undoOr seesPaper otherwise.1) (scene_undoOr otherwise.2).toOutlook
    · have bare : obey nested scope takeBack command rest =
          obey nested scope (fun _ => throw (.missing .undoableFold)) command rest := by
        cases command with
        | undo => exact absurd rfl undoes
        | _ => rfl
      rw [bare]
      exact .of_blind
        (blind_obey scripts.blind (fun _ => .throw _) (Sight.admits_of_seen seesPaper seesColor _) rest)
        (outlook_obey loads scripts.compile (fun _ _ => .throw _) rest)

theorem attunedScripts_ofDepth (depth : Nat) : AttunedScripts (.ofDepth depth) := by
  refine ⟨blindScripts_ofDepth depth, ?_, scene_compile_ofDepth depth⟩
  induction depth with
  | zero => exact fun _ _ _ _ => .of_blind (.throw _) (.throw _)
  | succ depth induction =>
      intro sight seesPaper seesColor cancellable source
      have inner : AttunedScripts (.ofDepth depth) :=
        ⟨blindScripts_ofDepth depth, induction, scene_compile_ofDepth depth⟩
      rw [Nested.load_ofDepth]
      exact .atLevel (attuned_dispatch seesPaper seesColor fun _ _ command _ rest =>
        attuned_obey inner seesPaper seesColor (fun _ _ => ⟨.throw _, .throw _⟩) rest)

end Scripts

end Session

end PaperFolding
