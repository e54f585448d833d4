import PaperFolding.Proofs.Session.Rebuilding
import PaperFolding.Proofs.Session.Surroundings

/-!
What the words of the appearance come to: when each of them is a statement of its own, and when all of them
stand in front of a construction that has dropped some of them.
-/

namespace PaperFolding

open Script

namespace Session

/-- The sessions show their paper in the same way, and name the same file if that matters. -/
structure SameLook (named : Prop) (first second : Session) : Prop where
  color : first.color = second.color
  locale : first.locale = second.locale
  camera : first.camera = second.camera
  filename : named → first.filename = second.filename

variable {named : Prop} {first second third session : Session}

namespace SameLook

theorem refl (session : Session) : SameLook named session session := ⟨rfl, rfl, rfl, fun _ => rfl⟩

theorem trans (same : SameLook named first second) (same' : SameLook named second third) :
    SameLook named first third where
  color := same.color.trans same'.color
  locale := same.locale.trans same'.locale
  camera := same.camera.trans same'.camera
  filename holds := (same.filename holds).trans (same'.filename holds)

theorem apply (same : SameLook named first second) (settings : first.settings = second.settings)
    (setting : Setting) : SameLook named (setting.apply first) (setting.apply second) := by
  cases setting with
  | locale place => exact { same with locale := rfl }
  | filename path => exact { same with filename := fun _ => rfl }
  | camera view => exact { same with camera := rfl }
  | color tint => exact { same with color := rfl }
  | uncolor => exact { same with color := congrArg Settings.resetColor settings }
  | _ => exact ⟨same.color, same.locale, same.camera, same.filename⟩

theorem unnamed (same : SameLook named first second) : SameLook False first second :=
  ⟨same.color, same.locale, same.camera, False.elim⟩

end SameLook

theorem settings_apply (setting : Setting) (session : Session) :
    (setting.apply session).settings = session.settings := by
  cases setting <;> rfl

theorem SameLook.dressed (same : SameLook named first second)
    (settings : first.settings = second.settings) (leads : List Lead) :
    SameLook named (dressed leads first) (dressed leads second) := by
  induction leads generalizing first second with
  | nil => exact same
  | cons lead leads induction =>
      apply induction (same.apply settings lead.setting)
      rw [settings_apply, settings_apply, settings]

theorem dressed_settings (leads : List Lead) (session : Session) :
    (dressed leads session).settings = session.settings := by
  induction leads generalizing session with
  | nil => rfl
  | cons lead leads induction => exact (induction _).trans (settings_apply lead.setting session)

theorem dressed_surroundings (leads : List Lead) (session : Session) :
    (dressed leads session).surroundings = session.surroundings := by
  induction leads generalizing session with
  | nil => rfl
  | cons lead leads induction => exact (induction _).trans (surroundings_apply lead.setting session)

theorem dressed_enter (leads : List Lead) (entry : String) (session : Session) :
    SameLook named (dressed leads session) (dressed leads (session.enter entry)) :=
  have entered : SameLook named session (session.enter entry) := ⟨rfl, rfl, rfl, fun _ => rfl⟩
  entered.dressed rfl leads

/-! ## While it is noted -/

theorem SameLook.of_scene (same : first.scene = second.scene) : SameLook named first second where
  color := congrArg Scene.color same
  locale := congrArg (fun scene => scene.locale) same
  camera := congrArg (fun scene => scene.camera) same
  filename _ := congrArg Scene.filename same

/-- Only the words of the appearance change it. -/
theorem sameLook_apply {parameter : Parameter} {setting : Setting}
    (unseen : parameter.isAppearance = false) (fits : parameter.gives setting = true)
    (session : Session) : SameLook named (setting.apply session) session := by
  cases parameter <;> cases unseen <;> cases setting <;> cases fits <;>
    exact ⟨rfl, rfl, rfl, fun _ => rfl⟩

theorem dressed_append (leads : List Lead) (lead : Lead) (session : Session) :
    dressed (leads ++ [lead]) session = lead.setting.apply (dressed leads session) :=
  List.foldl_append

/-! ## In front of a construction -/

theorem exists_path {setting : Setting} (fits : Parameter.filename.gives setting = true) :
    ∃ path, setting = .filename path := by
  cases setting with
  | filename path => exact ⟨path, rfl⟩
  | _ => cases fits

/-- Words that only name files can be dropped, as far as the rest of the appearance is concerned. -/
theorem sameLook_filter {leads : List Lead} {keeps : Lead → Bool}
    (files : ∀ lead ∈ leads, keeps lead = false → lead.parameter = .filename) (session : Session) :
    SameLook False (dressed leads session) (dressed (leads.filter keeps) session) := by
  induction leads generalizing session with
  | nil => exact .refl session
  | cons lead leads induction =>
      obtain ⟨here, others⟩ := List.forall_mem_cons.1 files
      cases kept : keeps lead with
      | true =>
          rw [List.filter_cons_of_pos kept]
          exact induction others _
      | false =>
          rw [List.filter_cons_of_neg (by rw [kept]; exact Bool.false_ne_true)]
          have fits := Parameter.gives_of_setting (lead.reads fun _ => none)
          rw [here kept] at fits
          obtain ⟨path, names⟩ := exists_path fits
          have same : SameLook False (lead.setting.apply session) session := by
            rw [names]
            exact ⟨rfl, rfl, rfl, False.elim⟩
          have settings := settings_apply lead.setting session
          exact (same.dressed settings leads).trans (induction others session)

end Session

end PaperFolding
