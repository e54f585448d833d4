import PaperFolding.Proofs.Script.Reprint
import PaperFolding.Session.Dispatch

/-!
What parameters read: which settings a parameter gives, and which arguments the appearance understands.
-/

namespace PaperFolding

open Script

namespace Keyword

def names : List String := all.map name

theorem mem_names {word : String} (known : (ofWord? word).isSome) : word ∈ names := by
  obtain ⟨keyword, found⟩ := Option.isSome_iff_exists.1 known
  rw [← name_of_ofWord? found]
  exact List.mem_map_of_mem (List.mem_of_find?_eq_some found)

theorem argument_names : ∀ word ∈ names, argument word = word := by decide +kernel

end Keyword

namespace Parameter

theorem plain_name (parameter : Parameter) : Plain parameter.name.toList := by
  cases parameter <;> decide

theorem name_ne_nil (parameter : Parameter) : parameter.name.toList ≠ [] := by
  cases parameter <;> decide

theorem trimEnd_name (parameter : Parameter) :
    Text.trimEnd (parameter.name.toList ++ [' ']) = parameter.name.toList := by
  cases parameter <;> decide

theorem setting_appearance {parameter : Parameter} (appearance : parameter.isAppearance = true)
    (placing placing' : Placing) (arguments : List String) :
    parameter.setting placing arguments = parameter.setting placing' arguments := by
  cases parameter <;> cases appearance <;>
    rcases arguments with _ | ⟨first, _ | ⟨second, _ | ⟨third, _ | ⟨fourth, others⟩⟩⟩⟩ <;> rfl

/-- No word that is known, nor the empty one, reads as a color, a locale or a direction. -/
theorem unreadable_names : ∀ word ∈ "" :: Keyword.names,
    (color.colorOf word).toOption = none ∧ (locale.localeOf word).toOption = none ∧
      spatial? word = none := by
  decide +kernel

theorem ok_of_bind {α β : Type} {first : Except Fault α} {next : α → Except Fault β} {value : β}
    (done : first >>= next = .ok value) : ∃ middle, first = .ok middle ∧ next middle = .ok value := by
  cases first with
  | error fault => cases done
  | ok middle => exact ⟨middle, rfl, done⟩

section Readers

variable {word : String} {setting : Setting}

theorem notMem_names_of_direction {direction : Spatial}
    (reads : camera.reading (spatial? word) = .ok direction) : word ∉ "" :: Keyword.names := by
  intro among
  rw [(unreadable_names word among).2.2] at reads
  cases reads

theorem notMem_names_of_locale (reads : locale.localeOf word = .ok setting) :
    word ∉ "" :: Keyword.names := by
  intro among
  have unreadable := (unreadable_names word among).2.1
  rw [reads] at unreadable
  cases unreadable

theorem notMem_names_of_color (reads : color.colorOf word = .ok setting) :
    word ∉ "" :: Keyword.names := by
  intro among
  have unreadable := (unreadable_names word among).1
  rw [reads] at unreadable
  cases unreadable

end Readers

theorem notMem_names_of_setting {parameter : Parameter} (appearance : parameter.isAppearance = true)
    {placing : Placing} {arguments : List String} {setting : Setting}
    (reads : parameter.setting placing arguments = .ok setting) {argument : String}
    (among : argument ∈ arguments) :
    argument ∉ "" :: Keyword.names ∨ parameter = .filename ∧ argument ≠ "" := by
  unfold Parameter.setting at reads
  split at reads
  case h_10 =>
    obtain rfl := List.mem_singleton.1 among
    exact .inl (notMem_names_of_locale reads)
  case h_11 =>
    obtain rfl := List.mem_singleton.1 among
    refine .inr ⟨rfl, ?_⟩
    rintro rfl
    cases reads
  case h_13 =>
    obtain ⟨_, direction, reads⟩ := ok_of_bind reads
    obtain ⟨_, xAxis, reads⟩ := ok_of_bind reads
    obtain ⟨_, yAxis, -⟩ := ok_of_bind reads
    simp only [List.mem_cons, List.not_mem_nil, or_false] at among
    rcases among with rfl | rfl | rfl
    · exact .inl (notMem_names_of_direction direction)
    · exact .inl (notMem_names_of_direction xAxis)
    · exact .inl (notMem_names_of_direction yAxis)
  case h_14 =>
    obtain rfl := List.mem_singleton.1 among
    exact .inl (notMem_names_of_color reads)
  case h_15 => simp at among
  case h_16 => cases reads
  all_goals cases appearance

/-- An argument that the appearance understands is not empty, and only a file can be named like a
word that is known. -/
theorem argument_of_setting {parameter : Parameter} (appearance : parameter.isAppearance = true)
    {placing : Placing} {arguments : List String} {setting : Setting}
    (reads : parameter.setting placing arguments = .ok setting) :
    ∀ argument ∈ arguments,
      argument ≠ "" ∧ (parameter ≠ .filename → argument ∉ Keyword.names) := by
  intro argument among
  rcases notMem_names_of_setting appearance reads among with unknown | ⟨file, visible⟩
  · rw [List.mem_cons, not_or] at unknown
    exact ⟨unknown.1, fun _ => unknown.2⟩
  · exact ⟨visible, fun other => absurd file other⟩

def gives : Parameter → Setting → Bool
  | plane, .plane _ | planeThrough, .plane _ | angleBisector, .plane _ => true
  | planePoint, .point _ | planeNormal, .normal _ | target, .target _ | angle, .angle _ => true
  | paper, .corners _ | paper, .preset _ | corner, .corner _ | title, .title _ => true
  | locale, .locale _ | filename, .filename _ | camera, .camera _ => true
  | color, .color _ | uncolor, .uncolor => true
  | _, _ => false

theorem gives_planeOf {parameter : Parameter} (plane : ∀ along, parameter.gives (.plane along) = true)
    {result : Except Degeneracy Plane} {setting : Setting} (reads : planeOf result = .ok setting) :
    parameter.gives setting = true := by
  cases result with
  | error cause => cases reads
  | ok along =>
      cases reads
      exact plane along

theorem gives_sheetOf {argument : String} {setting : Setting}
    (reads : paper.sheetOf argument = .ok setting) : paper.gives setting = true := by
  unfold sheetOf at reads
  split at reads
  · obtain ⟨numbers, -, reads⟩ := ok_of_bind reads
    split at reads
    · cases reads
      rfl
    · cases reads
  · split at reads
    · cases reads
      rfl
    · cases reads
  · cases reads

theorem gives_colorOf {argument : String} {setting : Setting}
    (reads : color.colorOf argument = .ok setting) : color.gives setting = true := by
  obtain ⟨numbers, -, reads⟩ := ok_of_bind reads
  split at reads
  · cases reads
    rfl
  · cases reads
    rfl
  · cases reads

theorem gives_localeOf {argument : String} {setting : Setting}
    (reads : locale.localeOf argument = .ok setting) : locale.gives setting = true := by
  unfold localeOf at reads
  split at reads
  · cases reads
    rfl
  · cases reads

theorem gives_of_setting {parameter : Parameter} {placing : Placing} {arguments : List String}
    {setting : Setting} (reads : parameter.setting placing arguments = .ok setting) :
    parameter.gives setting = true := by
  unfold Parameter.setting at reads
  split at reads
  case h_1 =>
    obtain ⟨_, -, reads⟩ := ok_of_bind reads
    obtain ⟨_, -, reads⟩ := ok_of_bind reads
    cases reads
    rfl
  case h_2 | h_3 =>
    obtain ⟨_, -, reads⟩ := ok_of_bind reads
    obtain ⟨_, -, reads⟩ := ok_of_bind reads
    obtain ⟨_, -, reads⟩ := ok_of_bind reads
    exact gives_planeOf (fun _ => rfl) reads
  case h_4 | h_5 | h_6 | h_7 | h_9 =>
    obtain ⟨_, -, reads⟩ := ok_of_bind reads
    cases reads
    rfl
  case h_8 => exact gives_sheetOf reads
  case h_10 => exact gives_localeOf reads
  case h_11 =>
    split at reads
    · cases reads
    · cases reads
      rfl
  case h_12 | h_15 =>
    cases reads
    rfl
  case h_13 =>
    obtain ⟨_, -, reads⟩ := ok_of_bind reads
    obtain ⟨_, -, reads⟩ := ok_of_bind reads
    obtain ⟨_, -, reads⟩ := ok_of_bind reads
    cases reads
    rfl
  case h_14 => exact gives_colorOf reads
  case h_16 => cases reads

theorem onStage_of_appearance {parameter : Parameter} (appearance : parameter.isAppearance = true)
    {placing : Placing} {arguments : List String} {setting : Setting}
    (reads : parameter.setting placing arguments = .ok setting) (stage : Stage) :
    setting.onStage stage = stage := by
  have fits := gives_of_setting reads
  cases parameter <;> cases appearance <;> cases setting <;> first | rfl | cases fits

end Parameter

/-! ## Corners that are staged -/

def Setting.ownCorners (setting : Setting) : List Planar := (setting.onStage .empty).corners

theorem Setting.corners_onStage {setting : Setting} {stage : Stage} {corner : Planar}
    (staged : corner ∈ (setting.onStage stage).corners) :
    corner ∈ stage.corners ∨ corner ∈ setting.ownCorners := by
  cases setting
  case corners all => exact .inr staged
  case corner next => exact List.mem_append.1 staged
  all_goals exact .inl staged

theorem Parameter.setting_of_ownCorners {parameter : Parameter} {placing : Placing}
    {arguments : List String} {setting : Setting}
    (reads : parameter.setting placing arguments = .ok setting) (some : setting.ownCorners ≠ [])
    (placing' : Placing) : parameter.setting placing' arguments = .ok setting := by
  have fits := gives_of_setting reads
  by_cases either : parameter = .paper ∨ parameter = .corner
  · rw [← reads]
    rcases either with rfl | rfl <;>
      rcases arguments with _ | ⟨first, _ | ⟨second, others⟩⟩ <;> rfl
  · rw [not_or] at either
    refine absurd ?_ some
    cases setting
    case corners | corner =>
      cases parameter
      case paper => exact absurd rfl either.1
      case corner => exact absurd rfl either.2
      all_goals cases fits
    all_goals rfl

end PaperFolding
