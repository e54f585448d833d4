import PaperFolding.Proofs.Paper.Color
import PaperFolding.Proofs.Session.Grade.Attained

/-!
The color of the paper. Whatever scripts set has three bytes, but the settings and archives may bring wider
colors with them.
-/

namespace PaperFolding

open Script

/-- Any paper, in a color of three bytes. -/
def Grade.narrow : Grade where
  legible _ := True
  paper _ := True
  color := Color.Narrow
  packed := Color.narrow_ofPacked

theorem Engine.upholds_narrow (engine : Engine) : engine.Upholds .narrow where
  opens _ := trivial
  preset _ := trivial
  corners _ := trivial
  apply _ _ _ := trivial
  undo _ _ := trivial
  redo _ _ := trivial

namespace Session

variable {session : Session}

theorem tokens_uncolor : tokens Parameter.uncolor.name = [Parameter.uncolor.name] := by
  decide +kernel

theorem executed_uncolor (unstopped : session.world.watch.stopped = false) :
    (session.executed Parameter.uncolor.name).color = session.settings.resetColor := by
  have entered : (session.enter Parameter.uncolor.name).world.watch.stopped = false := unstopped
  have reads : Parameter.uncolor.setting (session.enter Parameter.uncolor.name).placing
      ((taken []).map argument) = .ok .uncolor := rfl
  have runs : session.running Parameter.uncolor.name =
      (.ok (), (Setting.uncolor.apply (session.enter Parameter.uncolor.name)).remembering
        Parameter.uncolor.name []) := by
    rw [running, runRecorded, tokens_uncolor, dispatch,
      on_bind_of_ok (on_obeyToken_appearance entered reads rfl)]
    rfl
  obtain ⟨-, leaves⟩ := success_of_running runs
  rw [leaves]
  rfl

theorem opensOnly_uncolor {admitted : Archive → Prop} :
    session.OpensOnly admitted Parameter.uncolor.name := by
  apply opensOnly_of_commandless
  intro token among command found
  rw [tokens_uncolor, List.mem_singleton] at among
  rw [among, Parameter.ofWord?_name] at found
  cases found

/-- In every session that is attained the color is that of its channels, if and only if the settings and the
archives that are admitted bring no wider one. -/
theorem attained_narrow_iff (settings : Settings) (admitted : Archive → Prop) :
    (∀ engine world session, Attained admitted (ofSettings settings engine world) session →
      session.color.packed ≤ 0xFFFFFF ∧ session.color.rebuilt = session.color) ↔
    settings.initialColor.Narrow ∧ settings.resetColor.Narrow ∧
      ∀ archive, admitted archive → ∀ color ∈ archive.color, color.Narrow := by
  constructor
  · intro narrow
    have began := @Attained.first admitted (ofSettings settings .plain (.quiet (.empty []) .absent))
    have initial := (narrow _ _ _ began).1
    have reset := (narrow _ _ _ (began.executed opensOnly_uncolor)).1
    rw [executed_uncolor rfl] at reset
    refine ⟨initial, reset, fun archive admits color tinted => ?_⟩
    obtain ⟨session, attained, -, shown⟩ := @exists_attained_open admitted settings
      { Engine.plain with openArchive := fun _ _ => .ok archive } (.empty []) archive rfl admits
    have opened := (narrow _ _ _ attained).1
    rw [shown, Option.mem_def.1 tinted] at opened
    exact opened
  · rintro ⟨initial, reset, archives⟩ engine world session attained
    have graded : (ofSettings settings engine world).Graded .narrow :=
      .ofSettings engine.upholds_narrow initial reset world
    have narrow : session.color.Narrow := by
      refine (attained.graded (fun archive admits => ?_) graded).color
      exact ⟨fun _ => trivial, fun _ => archives archive admits⟩
    exact ⟨narrow, Color.rebuilt_eq_iff.2 narrow⟩

/-- Settings with the widest color there is. -/
def wideText : String := "\x7b\"initial_paper_color\":4294967295\x7d"

/-- They are loaded as they are, and a session begins with more than three bytes of color. -/
theorem wide_loaded :
    ∃ settings, Settings.load ⟨[], [(["foldscript.json"], .file wideText.toUTF8)], .willing⟩ "." =
        .ok (some settings) ∧
      ¬ (ofSettings settings .plain (.quiet (.empty []) .absent)).color.packed ≤ 0xFFFFFF ∧
      (ofSettings settings .plain (.quiet (.empty []) .absent)).color.rebuilt ≠
        (ofSettings settings .plain (.quiet (.empty []) .absent)).color := by
  refine ⟨{ Settings.standard with initialColor := ⟨0xFFFFFFFF⟩ }, ?_, ?_, ?_⟩
  · decide +kernel
  · decide +kernel
  · decide +kernel

end Session

end PaperFolding
