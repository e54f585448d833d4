import PaperFolding.Proofs.Session.Deeds
import PaperFolding.Proofs.Session.Dressing
import PaperFolding.Proofs.Session.Outlook
import PaperFolding.Proofs.Session.Rewriting
import PaperFolding.Proofs.Session.Sight.Scripts

/-!
How a running statement comes to one of its deeds. As long as it has neither loaded nor opened anything, its
paper is shown as the words say that it has noted.
-/

namespace PaperFolding

open Script

/-- A deed that leaves the appearance to the words of the statement. -/
def Deed.KeepsLook (deed : Deed) : Prop := deed.command ≠ .load ∧ deed.command ≠ .reopen

instance (deed : Deed) : Decidable deed.KeepsLook := inferInstanceAs (Decidable (_ ∧ _))

namespace Session

variable {run : Command → List String → Action Unit} {scope : Scope} {row rest : List String}
  {start session after : Session} {depth : Nat} {deed : Deed} {command : Command} {token : String}

/-- What every token keeps that is obeyed with success holds where a deed is done, if the deeds before it are
such that it is kept. -/
theorem arrives (holds : List String → Session → Prop) (allows : Deed → Prop)
    (step : ∀ {token rest session after}, holds (token :: rest) session →
      (∀ own ∈ deed? scope token session, allows own) →
      (obeyToken run scope token rest).on session = (.ok (), after) → holds rest after)
    (here : holds row session) {earlier later : List Deed} (allowed : ∀ other ∈ earlier, allows other)
    (split : deedsAlong run scope row session = earlier ++ deed :: later)
    (done : (dispatch run scope row).on session = (.ok (), after)) :
    ∃ rest reached, holds (deed.command.name :: rest) deed.session ∧
      (obeyToken run scope deed.command.name rest).on deed.session = (.ok (), reached) ∧
      (dispatch run scope rest).on reached = (.ok (), after) ∧
      deedsAlong run scope rest reached = later := by
  induction row generalizing session earlier with
  | nil =>
      have none : [] = earlier ++ deed :: later := split
      exact absurd none.symm (by simp)
  | cons token rest induction =>
      obtain ⟨_, reached, obeyed, others⟩ := ok_of_bind done
      rw [deedsAlong_of_ok obeyed] at split
      cases own : deed? scope token session with
      | none =>
          rw [own, Option.toList_none, List.nil_append] at split
          refine induction (step here ?_ obeyed) allowed split others
          rw [own]
          exact fun _ among => absurd among (Option.not_mem_none _)
      | some first =>
          rw [own, Option.toList_some, List.singleton_append] at split
          cases earlier with
          | nil =>
              rw [List.nil_append] at split
              obtain ⟨rfl, behind⟩ := List.cons.inj split
              obtain ⟨same, found, -⟩ := deed?_eq_some own
              obtain rfl : first.command.name = token := Keyword.name_of_ofWord? found
              rw [same]
              exact ⟨rest, reached, here, obeyed, others, behind⟩
          | cons other earlier =>
              rw [List.cons_append] at split
              obtain ⟨rfl, behind⟩ := List.cons.inj split
              obtain ⟨own', allowed⟩ := List.forall_mem_cons.1 allowed
              refine induction (step here ?_ obeyed) allowed behind others
              rw [own]
              rintro _ ⟨⟩
              exact own'

/-! ## What is known there -/

theorem resembles_of_obeyToken {takeBack : List String → Action Unit}
    (takesBack : ∀ rest, Blind .everything (takeBack rest))
    (resembles : Resembles .everything session session)
    (done : (obeyToken (obey (.ofDepth depth) scope takeBack) scope token rest).on session =
      (.ok (), after)) : Resembles .everything after after := by
  have blind : Blind .everything
      (obeyToken (obey (.ofDepth depth) scope takeBack) scope token rest) :=
    blind_obeyToken rfl (fun command _ => Sight.admits_of_seen rfl rfl command)
      fun _ admits => blind_obey (blindScripts_ofDepth depth) takesBack admits rest
  have meets := blind session session resembles
  rw [done] at meets
  exact meets.related () rfl

/-- The sessions that a statement finds on its way are plain, and nobody watches them. -/
theorem resembles_of_deed {statement : String} (resembles : Resembles .everything start start)
    (among : deed ∈ start.deeds statement) : Resembles .everything deed.session deed.session := by
  have takesBack (rest : List String) : Blind .everything
      (replayUndo (.ofDepth start.nestingBound) true 1 rest) :=
    blind_replayUndo (blindScripts_ofDepth _) true 1 rest
  exact (forall_deedsAlong (fun session => Resembles .everything session session)
    (fun resembles done => resembles_of_obeyToken takesBack resembles done)
    (resembles.enter statement) among).1

theorem surroundings_of_obeyToken {nested : Nested} {takeBack : List String → Action Unit}
    (inward : ∀ own ∈ deed? scope token session, ¬ Outward own.command)
    (done : (obeyToken (obey nested scope takeBack) scope token rest).on session = (.ok (), after)) :
    after.surroundings = session.surroundings := by
  rcases deed?_cases done with ⟨-, -, kept⟩ | ⟨command, reached, does, obeyed, -, kept⟩
  · exact kept
  · have silent : Silent (obey nested scope takeBack command rest) := silent_obey (inward _ does) rest
    have same := silent session
    rw [obeyed] at same
    exact kept.trans same

/-- As long as nothing is done that reaches beyond the paper, what surrounds it stays the same. -/
theorem surroundings_of_deed {statement : String} {earlier later : List Deed}
    (done : start.failure statement = none)
    (split : start.deeds statement = earlier ++ deed :: later)
    (inward : ∀ other ∈ earlier, ¬ Outward other.command) :
    deed.session.surroundings = start.surroundings := by
  obtain ⟨after, runs, -⟩ := running_of_success done
  have entered : (start.enter statement).surroundings = start.surroundings := rfl
  obtain ⟨-, -, same, -⟩ :=
    arrives (fun _ session => session.surroundings = start.surroundings)
      (fun other => ¬ Outward other.command)
      (fun same inward done => (surroundings_of_obeyToken inward done).trans same) entered inward
      split runs
  exact same

/-- Where a statement has come to that has so many tokens left. If there is such a command to come, what it
has noted of the appearance can be written back, and it says how the paper is shown. -/
structure Noting (start : Session) (command : Command) (row : List String) (session : Session) :
    Prop where
  resembles : Resembles .everything session session
  rows : Row (row.map String.toList)
  forward : Command.undo.name ∉ row
  settings : session.settings = start.settings
  leads : command.name ∈ row → ∃ leads : List Lead,
    session.draft.lead = leads.map Lead.entry ∧ SameLook True session (dressed leads start)

namespace Noting

variable {takeBack : List String → Action Unit}

theorem enter {statement : String} (resembles : Resembles .everything start start)
    (unmarked : spaceMark ∉ statement.toList) (forward : Command.undo.name ∉ tokens statement) :
    Noting start command (tokens statement) (start.enter statement) where
  resembles := resembles.enter statement
  rows := row_tokens unmarked
  forward := forward
  settings := rfl
  leads := fun _ => ⟨[], rfl, rfl, rfl, rfl, fun _ => rfl⟩

theorem leads_tail (noting : Noting start command (token :: rest) session)
    (more : command.name ∈ rest) : ∃ leads : List Lead,
      session.draft.lead = leads.map Lead.entry ∧ SameLook True session (dressed leads start) :=
  noting.leads (List.mem_cons_of_mem token more)

theorem parameter_step (noting : Noting start command (token :: rest) session)
    {parameter : Parameter} {setting : Setting}
    (reads : parameter.setting session.placing ((taken rest).map argument) = .ok setting)
    (ends : after = if scope.recording && parameter.isAppearance then
        (setting.apply session).remembering parameter.name (taken rest)
      else setting.apply session) (recording : scope.recording = true)
    (more : command.name ∈ rest) :
    ∃ leads : List Lead, after.draft.lead = leads.map Lead.entry ∧
      SameLook True after (dressed leads start) := by
  have lead : (setting.apply session).draft.lead = session.draft.lead := by
    cases setting <;> rfl
  obtain ⟨leads, led, look⟩ := noting.leads_tail more
  rw [recording, Bool.true_and] at ends
  cases appearance : parameter.isAppearance with
  | true =>
      obtain ⟨noted, entry, sets⟩ := exists_lead appearance noting.rows.tail more reads
      rw [appearance, if_pos rfl] at ends
      refine ⟨leads ++ [noted], ?_, ?_⟩
      · rw [ends, List.map_append, List.map_singleton, entry, ← led, ← lead]
        rfl
      · have settings := noting.settings.trans (dressed_settings leads start).symm
        obtain ⟨color, locale, camera, filename⟩ := look.apply settings setting
        rw [dressed_append, sets, ends]
        exact ⟨color, locale, camera, filename⟩
  | false =>
      rw [appearance, if_neg Bool.false_ne_true] at ends
      refine ⟨leads, ?_, ?_⟩
      · rw [ends, lead, led]
      · rw [ends]
        exact (sameLook_apply appearance (Parameter.gives_of_setting reads) session).trans look

theorem command_step (noting : Noting start command (token :: rest) session) {other : Command}
    {reached : Session} (found : Keyword.ofWord? token = some (.command other))
    (keeps : Deed.KeepsLook ⟨other, session⟩)
    (obeyed : (obey (.ofDepth depth) scope takeBack other rest).on session = (.ok (), reached)) :
    reached.scene = session.scene := by
  have forward : other ≠ .undo := by
    rintro rfl
    obtain rfl : Command.undo.name = token := Keyword.name_of_ofWord? found
    exact noting.forward (List.mem_cons_self ..)
  have preserves : Preserves scene (obey (.ofDepth depth) scope takeBack other rest) :=
    scene_obey keeps.1 keeps.2 (scene_compile_ofDepth depth) (fun undoes => absurd undoes forward)
      rest
  have same := preserves session
  rwa [obeyed] at same

theorem step (recording : scope.recording = true)
    (takesBack : ∀ rest, Blind .everything (takeBack rest))
    (noting : Noting start command (token :: rest) session)
    (keeps : ∀ own ∈ deed? scope token session, own.KeepsLook)
    (done : (obeyToken (obey (.ofDepth depth) scope takeBack) scope token rest).on session =
      (.ok (), after)) : Noting start command rest after := by
  have resembles := resembles_of_obeyToken takesBack noting.resembles done
  have rows := noting.rows.tail
  have forward : Command.undo.name ∉ rest :=
    fun later => noting.forward (List.mem_cons_of_mem token later)
  rcases obeyToken_cases done with ⟨rfl, -⟩ | ⟨parameter, setting, -, reads, ends⟩ |
    ⟨other, reached, found, obeyed, ends⟩
  · exact ⟨resembles, rows, forward, noting.settings, noting.leads_tail⟩
  · have settings : after.settings = session.settings := by
      rw [ends, ← settings_apply setting session]
      split <;> rfl
    exact ⟨resembles, rows, forward, settings.trans noting.settings,
      noting.parameter_step reads ends recording⟩
  · have scene : after.scene = session.scene := by
      rw [← noting.command_step found (keeps _ (deed?_of_ok found done)) obeyed, ends]
      split <;> rfl
    have settings : after.settings = session.settings :=
      congrArg (fun scene => scene.settings) scene
    refine ⟨resembles, rows, forward, settings.trans noting.settings, fun more => ?_⟩
    obtain ⟨leads, led, look⟩ := noting.leads_tail more
    exact ⟨leads, (congrArg (fun scene => scene.lead) scene).trans led,
      (SameLook.of_scene scene).trans look⟩

end Noting

end Session

end PaperFolding
