import PaperFolding.Proofs.Session.Grade.Attained

/-!
Sound paper: its outline has a corner more than a line, and what was done to it can be done again. All that a
session makes and folds by itself is sound, but archives are opened as they are.
-/

namespace PaperFolding

/-- The plane faces somewhere, and the region is the only one there is; creases have none. -/
structure Record.Sound (record : Record) : Prop where
  normal : record.plane.normal.vanishes = false
  region : record.region = none ∨ record.region = some 0
  crease : record.CreasesAll

namespace Ledger

/-- The same is asked of the records in the journal and of those that can be redone. -/
structure Sound (ledger : Ledger) : Prop where
  outline : 3 ≤ ledger.outline.length
  line : ∀ record ∈ ledger.line, record.Sound

variable {ledger folded : Ledger} {record : Record}

theorem sound_blank {outline : Outline} (corners : 3 ≤ outline.length) : (blank outline).Sound :=
  ⟨corners, fun _ among => absurd among List.not_mem_nil⟩

theorem sound_ofPreset (preset : Preset) : (ofPreset preset).Sound := by
  apply sound_blank
  cases preset <;> decide

theorem sound_ofCorners {corners : List Planar} (made : ofCorners? corners = some ledger) :
    ledger.Sound := by
  unfold ofCorners? at made
  simp only at made
  split at made
  · rename_i encloses
    cases made
    rw [Outline.enclosesArea, Bool.and_eq_true, decide_eq_true_eq] at encloses
    exact sound_blank encloses.1
  · cases made

/-- What is not refused is sound, if it is a crease only of the whole paper. -/
theorem sound_of_refusal? (creases : record.CreasesAll) (free : refusal? record = none) :
    record.Sound := by
  unfold refusal? at free
  split at free
  · cases free
  · rename_i faces
    refine ⟨Bool.eq_false_iff.2 faces, ?_, creases⟩
    split at free
    · rename_i nowhere
      exact .inl nowhere
    · rename_i region there
      split at free
      · rename_i zero
        exact .inr (there.trans (congrArg some zero))
      · cases free

theorem Sound.apply (sound : ledger.Sound) (creases : record.CreasesAll)
    (applied : ledger.apply record = .ok folded) : folded.Sound where
  outline := by
    rw [apply_outline applied]
    exact sound.outline
  line := by
    obtain ⟨journal, undone⟩ := apply_journal applied
    rw [Ledger.line, journal, undone, List.append_nil]
    intro other among
    rcases List.mem_append.1 among with old | new
    · exact sound.line other (List.mem_append_left _ old)
    · rw [List.mem_singleton.1 new]
      unfold Ledger.apply at applied
      split at applied
      · cases applied
      · exact sound_of_refusal? creases ‹_›

theorem Sound.undo (sound : ledger.Sound) (taken : ledger.undo = .ok folded) : folded.Sound where
  outline := by
    rw [undo_outline taken]
    exact sound.outline
  line := by
    rw [(undo_line taken).1]
    exact sound.line

theorem Sound.redo (sound : ledger.Sound) (done : ledger.redo = .ok folded) : folded.Sound where
  outline := by
    rw [redo_outline done]
    exact sound.outline
  line := by
    rw [(redo_line done).1]
    exact sound.line

end Ledger

/-- Sound paper of any color, where archives are opened that some text holds. -/
def Grade.sound : Grade where
  legible archive := ∃ text, Archive.read text = .ok archive
  paper := Ledger.Sound
  color _ := True
  packed _ := trivial

theorem Engine.upholds_sound : Engine.plain.Upholds .sound where
  opens {files path archive} opened := by
    have opened : openFile files path = .ok archive := opened
    unfold openFile at opened
    split at opened
    · cases opened
    · rename_i text _
      refine ⟨text, ?_⟩
      cases reads : Archive.read text with
      | error refusal =>
          rw [reads] at opened
          cases opened
      | ok other =>
          rw [reads] at opened
          cases opened
          rfl
  preset := Ledger.sound_ofPreset
  corners {corners ledger} made := by
    apply Ledger.sound_ofCorners
    show Ledger.ofCorners? corners = some ledger
    simp only [plain] at made
    split at made
    · cases made
      assumption
    · cases made
  apply creases applied sound := Ledger.Sound.apply sound creases applied
  undo taken sound := Ledger.Sound.undo sound taken
  redo done sound := Ledger.Sound.redo sound done

namespace Session

variable {admitted : Archive → Prop}

/-- Whatever can be read can also be opened somewhere. -/
theorem exists_openArchive {text : String} {archive : Archive}
    (reads : Archive.read text = .ok archive) :
    ∃ files, Engine.plain.openArchive files "a" = .ok archive := by
  let files : FileTree := ⟨[], [(["a"], .file text.toUTF8)], .willing⟩
  have found : files.read "a" = .ok text.toUTF8 := rfl
  refine ⟨files, ?_⟩
  show Engine.openFile files "a" = _
  rw [Engine.openFile, FileTree.readText_of_read found]
  show (Archive.read text).mapError _ = _
  rw [reads]
  rfl

/-- The paper of every session that is attained is sound, if and only if all archives are sound that are
admitted. -/
theorem attained_sound_iff (settings : Settings) (admitted : Archive → Prop) :
    (∀ world session, Attained admitted (ofSettings settings .plain world) session →
      ∀ ledger ∈ session.model, ledger.Sound) ↔
    ∀ text archive, Archive.read text = .ok archive → admitted archive → archive.ledger.Sound := by
  constructor
  · intro sound text archive reads admits
    obtain ⟨files, opens⟩ := exists_openArchive reads
    obtain ⟨session, attained, model, -⟩ :=
      @exists_attained_open admitted settings .plain files archive opens admits
    exact sound _ session attained archive.ledger model
  · intro sound world session attained
    have graded : (ofSettings settings .plain world).Graded .sound :=
      .ofSettings Engine.upholds_sound trivial trivial world
    refine (attained.graded (fun archive admits => ?_) graded).model
    exact ⟨fun ⟨text, reads⟩ => sound text archive reads admits, fun _ _ _ => trivial⟩

/-- An archive of paper without corners. -/
def hollowText : String :=
  "\x7b\"version\":1,\"color\":null,\"model\":\x7b\"outline\":[],\"journal\":[]\x7d\x7d"

/-- A fresh session that finds it. -/
def offeredHollow : Session :=
  ofSettings .standard .plain (.quiet ⟨[], [(["a"], .file hollowText.toUTF8)], .willing⟩ .absent)

/-- The archive is accepted as it is. -/
theorem hollow_attained :
    Attained (fun _ => True) offeredHollow
        ((offeredHollow.withAccess .root).executed "filename [a] open") ∧
      ((offeredHollow.withAccess .root).executed "filename [a] open").model = some (.blank []) ∧
      ¬ (Ledger.blank []).Sound := by
  refine ⟨?_, ?_, ?_⟩
  · exact (Attained.first.withAccess .root).executed fun _ _ _ _ => trivial
  · decide +kernel
  · intro sound
    exact absurd sound.outline (by decide)

end Session

end PaperFolding
