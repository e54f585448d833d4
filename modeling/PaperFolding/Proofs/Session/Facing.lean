import PaperFolding.Proofs.Session.Clearing
import PaperFolding.Proofs.Session.Joining
import PaperFolding.Proofs.Session.Loading
import PaperFolding.Proofs.Session.Sight.Scripts

/-!
Two sessions with different paper, or without any, in which the same script makes new paper. In front of
`new` it must not look at the paper that is there; behind it there is the same paper in both.
-/

namespace PaperFolding

open Script

/-- The stages ask for the same sheet. Staged corners count for nothing once a preset is staged. -/
structure Stage.SameSheet (first second : Stage) : Prop where
  preset : first.preset = second.preset
  corners : first.preset = none → first.corners = second.corners

namespace Stage.SameSheet

variable {first second : Stage}

theorem hasPaper (same : SameSheet first second) : first.hasPaper = second.hasPaper := by
  rw [Stage.hasPaper, Stage.hasPaper, ← same.preset]
  cases staged : first.preset with
  | some preset => rfl
  | none => rw [same.corners staged]

theorem onStage (same : SameSheet first second) (setting : Setting) :
    SameSheet (setting.onStage first) (setting.onStage second) := by
  cases setting with
  | corners all => exact ⟨rfl, fun _ => rfl⟩
  | preset sheet => exact ⟨rfl, nofun⟩
  | corner next => exact ⟨same.preset, fun none => congrArg (· ++ [next]) (same.corners none)⟩
  | _ => exact ⟨same.preset, same.corners⟩

end Stage.SameSheet

namespace Parameter

def isPlanar (argument : String) : Bool :=
  match Script.point? argument with
  | some (.planar _) => true
  | _ => false

/-- One of the arguments is taken for a point of the paper that is there. -/
def mapsOntoPaper (parameter : Parameter) (arguments : List String) : Bool :=
  match parameter, arguments with
  | .plane, point :: _ => isPlanar point
  | .planeThrough, points | .angleBisector, points | .planePoint, points => points.any isPlanar
  | _, _ => false

theorem resolve_of_spatial {parameter : Parameter} {argument : String}
    (spatial : isPlanar argument = false) (placing placing' : Placing) :
    parameter.resolve placing argument = parameter.resolve placing' argument := by
  unfold isPlanar at spatial
  unfold resolve
  cases point : Script.point? argument with
  | none => rfl
  | some point' =>
      cases point' with
      | spatial place => rfl
      | planar place =>
          rw [point] at spatial
          cases spatial

/-- What a parameter reads depends on the paper only if it maps a point onto it. -/
theorem setting_of_unmapped {parameter : Parameter} {arguments : List String}
    (unmapped : parameter.mapsOntoPaper arguments = false) (placing placing' : Placing) :
    parameter.setting placing arguments = parameter.setting placing' arguments := by
  have resolves {argument : String} (spatial : isPlanar argument = false) :
      parameter.resolve placing argument = parameter.resolve placing' argument :=
    resolve_of_spatial spatial placing placing'
  unfold Parameter.setting
  split
  -- Only the planes by points and the point alone are read with `placing`.
  case h_1 =>
    rw [resolves unmapped]
  case h_2 | h_3 =>
    simp only [mapsOntoPaper, List.any_cons, List.any_nil, Bool.or_false, Bool.or_eq_false_iff]
      at unmapped
    rw [resolves unmapped.1, resolves unmapped.2.1, resolves unmapped.2.2]
  case h_4 =>
    simp only [mapsOntoPaper, List.any_cons, List.any_nil, Bool.or_false] at unmapped
    rw [resolves unmapped]
  all_goals rfl

/-- Lays out a sheet on the stage, whatever was staged. -/
def lays : Parameter → Bool
  | paper => true
  | _ => false

def paints : Parameter → Bool
  | color | uncolor => true
  | _ => false

theorem sameSheet_of_lays {parameter : Parameter} {setting : Setting} (lays : parameter.lays = true)
    (fits : parameter.gives setting = true) (first second : Stage) :
    (setting.onStage first).SameSheet (setting.onStage second) := by
  cases parameter <;> cases lays
  cases setting with
  | corners all => exact ⟨rfl, fun _ => rfl⟩
  | preset sheet => exact ⟨rfl, nofun⟩
  | _ => cases fits

theorem color_of_paints {parameter : Parameter} {setting : Setting} (paints : parameter.paints = true)
    (fits : parameter.gives setting = true) {first second : Session}
    (settings : first.settings = second.settings) :
    (setting.apply first).color = (setting.apply second).color := by
  cases parameter <;> cases paints <;> cases setting <;> cases fits
  · rfl
  · exact congrArg Settings.resetColor settings

end Parameter

/-- Nothing is seen of the paper, and of its color only if it is `tinted`. -/
def Sight.blindfold (tinted : Bool) : Sight := ⟨false, tinted, false⟩

/-- The paper is seen, and its color if it is `tinted`. -/
def Sight.ofPaper (tinted : Bool) : Sight := ⟨true, tinted, false⟩

theorem Sight.admits_blindfold {command : Command} (admits : (blindfold false).admits command = true)
    (tinted : Bool) : (blindfold tinted).admits command = true := by
  cases command <;> first | rfl | cases admits

namespace Session

/-- A row of words that leave the paper that is there out of sight. -/
def passesOver : List String → Bool
  | [] => true
  | word :: rest =>
      (match Keyword.ofWord? word with
        | some (.command command) => (Sight.blindfold false).admits command
        | some (.parameter parameter) => !parameter.mapsOntoPaper ((taken rest).map argument)
        | none => true) && passesOver rest

def lays (word : String) : Bool :=
  match Keyword.ofWord? word with
  | some (.parameter parameter) => parameter.lays
  | _ => false

def paints (word : String) : Bool :=
  match Keyword.ofWord? word with
  | some (.parameter parameter) => parameter.paints
  | _ => false

/-- Two sessions that are to make new paper. The sheet that is staged is the same if it has been `laid`,
and so is the color if it is `tinted`. -/
structure Facing (laid tinted : Bool) (first second : Session) : Prop where
  resembles : Resembles (.blindfold tinted) first second
  sheet : laid = true → first.stage.SameSheet second.stage

variable {laid tinted : Bool} {first second : Session} {scope : Scope} {rest : List String}
  {nested : Nested} {takeBack : List String → Action Unit}

/-- A command that needs no paper does as a token what it does in sessions that both permit it. -/
theorem Meets.obeyToken {sight : Sight} {relation : Session → Session → Prop}
    {run : Command → List String → Action Unit} {command : Command}
    (applied : ∀ {first second}, relation first second → relation first.applying second.applying)
    (resembles : Resembles sight first second) (permitted : command.access ≤ first.access)
    (bare : command.needsPaper = false)
    (meets : Meets relation ((run command rest).on first) ((run command rest).on second)) :
    Meets relation ((obeyToken run scope command.name rest).on first)
      ((Session.obeyToken run scope command.name rest).on second) := by
  have ready (session : Session) : (command.needsPaper && session.model.isNone) = false := by
    rw [bare, Bool.false_and]
  have permitted' : command.access ≤ second.access := resembles.access ▸ permitted
  obtain ⟨ordinary, ordinary'⟩ := resembles.ordinary
  rw [obeyToken_command_eq, on_bind_of_ok (on_checkpoint_of_ordinary ordinary scope),
    on_bind_of_ok (on_checkpoint_of_ordinary ordinary' scope), obeyCommand,
    on_bind_of_ok (on_permit_of_ready permitted (ready first)),
    on_bind_of_ok (on_permit_of_ready permitted' (ready second))]
  apply meets.bind
  intro _ _ _ related
  split
  · exact .of_related rfl (applied related)
  · exact .of_related rfl related

/-! ## In front of new paper -/

theorem stage_loadTexture : Preserves Session.stage loadTexture :=
  .bind (.requiredFilename _) fun _ => .get_bind fun _ => .bind (.lift _) fun _ => .modify fun _ => rfl

theorem stage_elevate (request : Elevation) : Preserves Session.stage (elevate request) := by
  refine .modify fun session => ?_
  split <;> rfl

/-- A command that leaves the paper out of sight clears the stage, whatever is there, or leaves it as it
is. -/
theorem stage_of_admits {session after : Session} {command : Command}
    (admits : (Sight.blindfold false).admits command = true)
    (done : (obey nested scope takeBack command rest).on session = (.ok (), after)) :
    after.stage = if command = .compile then .empty else session.stage := by
  have kept (preserves : Preserves Session.stage (obey nested scope takeBack command rest)) :
      after.stage = session.stage := by
    have same := preserves session
    rwa [done] at same
  cases command with
  | compile =>
      obtain ⟨_, _, -, done⟩ := ok_of_bind done
      exact stage_of_clearStage done
  | reopen => exact kept stage_reopen
  | loadTexture => exact kept stage_loadTexture
  | unloadTexture => exact kept (.modify fun _ => rfl)
  | elevate request => exact kept (stage_elevate request)
  | _ => cases admits

theorem stagedSheet_of_sameSheet {stage stage' : Stage} (same : stage.SameSheet stage') :
    stagedSheet stage = stagedSheet stage' := by
  unfold stagedSheet
  rw [← same.preset]
  cases staged : stage.preset with
  | some preset => rfl
  | none => simp only [same.corners staged]

namespace Facing

theorem apply (facing : Facing laid tinted first second) {parameter : Parameter} {setting : Setting}
    (fits : parameter.gives setting = true) :
    Facing (laid || parameter.lays) (tinted || parameter.paints) (setting.apply first)
      (setting.apply second) where
  resembles :=
    { facing.resembles.apply setting with
      color := fun seen => by
        rcases Bool.or_eq_true_iff.1 seen with tinted | paints
        · exact (facing.resembles.apply setting).color tinted
        · exact Parameter.color_of_paints paints fits facing.resembles.settings }
  sheet known := by
    rw [Setting.stage_apply, Setting.stage_apply]
    rcases Bool.or_eq_true_iff.1 known with laid | lays
    · exact (facing.sheet laid).onStage setting
    · exact Parameter.sameSheet_of_lays lays fits _ _

theorem obeyParameter (facing : Facing laid tinted first second) {parameter : Parameter}
    (unmapped : parameter.mapsOntoPaper ((taken rest).map argument) = false) :
    Meets (Facing (laid || parameter.lays) (tinted || parameter.paints))
      ((obeyParameter scope parameter rest).on first)
      ((Session.obeyParameter scope parameter rest).on second) := by
  have obeyed : Meets (Facing (laid || parameter.lays) (tinted || parameter.paints))
      ((parameter.obey ((taken rest).map argument)).on first)
      ((parameter.obey ((taken rest).map argument)).on second) := by
    rw [Parameter.on_obey, Parameter.on_obey,
      Parameter.setting_of_unmapped unmapped second.placing first.placing]
    cases reads : parameter.setting first.placing ((taken rest).map argument) with
    | error fault => exact ⟨rfl, nofun⟩
    | ok setting => exact .of_related rfl (facing.apply (Parameter.gives_of_setting reads))
  apply obeyed.bind
  intro _ after after' facing
  split
  · exact .of_related rfl ⟨facing.resembles.remembering _ _, facing.sheet⟩
  · exact .of_related rfl facing

theorem obeyPassing (facing : Facing laid tinted first second) (scripts : BlindScripts nested)
    (takesBack : ∀ rest, Blind (.blindfold tinted) (takeBack rest)) {command : Command}
    (admits : (Sight.blindfold false).admits command = true) :
    Meets (Facing laid tinted)
      ((obeyToken (obey nested scope takeBack) scope command.name rest).on first)
      ((obeyToken (obey nested scope takeBack) scope command.name rest).on second) := by
  have seen := Sight.admits_blindfold admits tinted
  have blind : Blind (.blindfold tinted)
      (obeyToken (obey nested scope takeBack) scope command.name rest) := by
    rw [obeyToken_command_eq]
    exact .bind (blind_checkpoint scope) fun _ =>
      blind_obeyCommand seen (blind_obey scripts takesBack seen rest)
  have stage {session after : Session}
      (done : (obeyToken (obey nested scope takeBack) scope command.name rest).on session =
        (.ok (), after)) :
      after.stage = if command = .compile then .empty else session.stage := by
    obtain ⟨reached, obeyed, ends⟩ := obeyToken_command done
    rw [(beside_applied ends).2.1, stage_of_admits admits obeyed]
  obtain ⟨outcome, related⟩ := blind first second facing.resembles
  refine ⟨outcome, fun value done => ⟨related value done, fun laid => ?_⟩⟩
  rw [stage (Prod.ext done rfl), stage (Prod.ext (outcome.trans done) rfl)]
  split
  · exact ⟨rfl, fun _ => rfl⟩
  · exact facing.sheet laid

theorem obeyToken (facing : Facing laid tinted first second) (scripts : BlindScripts nested)
    (takesBack : ∀ tinted rest, Blind (.blindfold tinted) (takeBack rest)) {word : String}
    (passes : passesOver (word :: rest) = true) {rest' : List String}
    (takes : taken rest' = taken rest) :
    Meets (Facing (laid || lays word) (tinted || paints word))
      ((obeyToken (obey nested scope takeBack) scope word rest').on first)
      ((Session.obeyToken (obey nested scope takeBack) scope word rest').on second) := by
  obtain ⟨here, -⟩ := Bool.and_eq_true_iff.1 passes
  obtain ⟨ordinary, ordinary'⟩ := facing.resembles.ordinary
  cases found : Keyword.ofWord? word with
  | none =>
      have unknown := isKnown_eq_false_iff.2 found
      rw [on_obeyToken_unknown _ scope ordinary unknown, on_obeyToken_unknown _ scope ordinary' unknown]
      simp only [lays, paints, found, Bool.or_false]
      exact .of_related rfl facing
  | some keyword =>
      rw [found] at here
      cases keyword with
      | parameter parameter =>
          obtain rfl : parameter.name = word := Keyword.name_of_ofWord? found
          rw [obeyToken_parameter_eq, on_bind_of_ok (on_checkpoint_of_ordinary ordinary scope),
            on_bind_of_ok (on_checkpoint_of_ordinary ordinary' scope)]
          simp only [lays, paints, found]
          apply facing.obeyParameter
          rwa [takes, ← Bool.not_eq_true']
      | command command =>
          obtain rfl : command.name = word := Keyword.name_of_ofWord? found
          simp only [lays, paints, found, Bool.or_false]
          exact facing.obeyPassing scripts (takesBack tinted) here

/-- What stands in front of `new` does the same in both sessions, and so does the rest if it does the same
in sessions with the same sheet. -/
theorem dispatch (facing : Facing laid tinted first second) (scripts : BlindScripts nested)
    (takesBack : ∀ tinted rest, Blind (.blindfold tinted) (takeBack rest)) {front : List String}
    (passes : passesOver front = true) {relation : Session → Session → Prop}
    (others : ∀ {first second},
      Facing (laid || front.any lays) (tinted || front.any paints) first second →
        Meets relation
          ((dispatch (obey nested scope takeBack) scope (Command.new.name :: rest)).on first)
          ((Session.dispatch (obey nested scope takeBack) scope (Command.new.name :: rest)).on
            second)) :
    Meets relation
      ((dispatch (obey nested scope takeBack) scope (front ++ Command.new.name :: rest)).on first)
      ((Session.dispatch (obey nested scope takeBack) scope (front ++ Command.new.name :: rest)).on
        second) := by
  induction front generalizing laid tinted first second with
  | nil =>
      apply others
      rwa [List.any_nil, List.any_nil, Bool.or_false, Bool.or_false]
  | cons word front induction =>
      -- No parameter reaches beyond `new`, so it takes in the row what it takes in the front alone.
      have takes : taken (front ++ Command.new.name :: rest) = taken front :=
        taken_append_of_apart fun _ => taken_known (by decide +kernel) rest
      apply (facing.obeyToken scripts takesBack passes takes).bind
      intro _ after after' facing
      apply induction facing (Bool.and_eq_true_iff.1 passes).2
      rw [Bool.or_assoc, Bool.or_assoc]
      exact others

/-! ## New paper and what follows -/

/-- The same paper is made in both sessions, and nothing is left on the stage. -/
theorem makePaper (facing : Facing true tinted first second) (scope : Scope) (rest : List String) :
    Meets (Resembles (.ofPaper tinted)) ((makePaper scope rest).on first)
      ((Session.makePaper scope rest).on second) := by
  have same := facing.sheet rfl
  apply Meets.get_bind
  apply Meets.bind (facing.resembles.refuseIf (by rw [same.hasPaper]) rfl)
  intro _ _ _ resembles
  rw [stagedSheet_of_sameSheet same]
  apply Meets.bind (blind_stagedSheet _ _ _ resembles)
  rintro ⟨ledger, construction⟩ after after' resembles
  have held : Meets (fun first second => Resembles (.blindfold tinted) first second ∧
      first.model = second.model) ((replacePaper ledger).on after) ((replacePaper ledger).on after') :=
    .of_related rfl ⟨resembles.replacing ledger, rfl⟩
  apply held.bind
  rintro _ replaced replaced' ⟨resembles, model⟩
  refine .of_related rfl { (resembles.rebasing scope construction rest).clearStage with
    model := fun _ => ?_
    stage := fun _ => rfl }
  exact (rebasing_model _ _ _ _).trans (model.trans (rebasing_model _ _ _ _).symm)

theorem obeyNew (facing : Facing true tinted first second) :
    Meets (Resembles (.ofPaper tinted))
      ((Session.obeyToken (obey nested scope takeBack) scope Command.new.name rest).on first)
      ((Session.obeyToken (obey nested scope takeBack) scope Command.new.name rest).on second) :=
  .obeyToken (fun resembles => resembles.applying) facing.resembles (Nat.zero_le _) rfl
    (facing.makePaper scope rest)

/-- After `new` both sessions have the same paper, and go on alike. -/
theorem dispatch_new (facing : Facing true tinted first second) (scripts : BlindScripts nested)
    (takesBack : ∀ rest, Blind (.ofPaper tinted) (takeBack rest))
    (admits : Sight.AdmitsRow (.ofPaper tinted) rest) :
    Meets (Resembles (.ofPaper tinted))
      ((Session.dispatch (obey nested scope takeBack) scope (Command.new.name :: rest)).on first)
      ((Session.dispatch (obey nested scope takeBack) scope (Command.new.name :: rest)).on second) := by
  apply facing.obeyNew.bind
  intro _ _ _ resembles
  exact blind_dispatch rfl admits (fun _ rest admits => blind_obey scripts takesBack admits rest) _ _
    resembles

end Facing

end Session

end PaperFolding
