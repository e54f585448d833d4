import PaperFolding.Proofs.Files.Replacement
import PaperFolding.Proofs.Paper.Archive
import PaperFolding.Proofs.Session.Effective
import PaperFolding.Proofs.Session.Rebuilding
import PaperFolding.Proofs.Session.Renewal
import PaperFolding.Proofs.Session.Sparing

/-!
Archives of a session and what opening them leads to. The paper comes back with its color, also with the
one that an archive leaves out.
-/

namespace PaperFolding

open Script

/-! ## Written and opened by an engine -/

namespace Engine

variable {files written : FileTree} {ledger : Ledger} {document : Document}

theorem writeText_of_write (archive : document.encoding = .archive)
    (done : plain.write files ledger document = (.ok (), written)) :
    files.writeText document.path (Archive.write ⟨document.color, ledger⟩) = .ok written := by
  have written : writeArchive files ledger document = (.ok (), written) := by
    rw [← done]
    show _ = writeDocument files ledger document
    rw [writeDocument, archive]
  rw [writeArchive, writeFile] at written
  split at written
  · cases written
  · rename_i kept
    obtain ⟨-, rfl⟩ := Prod.mk.inj written
    exact kept

/-- An archive that has been written is opened with its color, and with the ledger if all of its coordinates
can be read. -/
theorem openArchive_of_write (archive : document.encoding = .archive)
    (done : plain.write files ledger document = (.ok (), written)) :
    plain.openArchive written document.path =
      match ledger.reread? with
      | none => .error (.sheet .unreadableArchive)
      | some ledger => .ok ⟨document.color, ledger⟩ := by
  have read := FileTree.readText_of_writeText (writeText_of_write archive done)
  show openFile written document.path = _
  rw [openFile, read]
  show (Archive.read _).mapError _ = _
  rw [Archive.read_write]
  cases ledger.reread? <;> rfl

end Engine

namespace Session

variable {session opener after : Session} {path : String}

/-! ## Statements of one command -/

theorem running_command {command : Command} (alone : tokens command.name = [command.name])
    (session : Session) :
    session.running command.name =
      (obeyToken (obey (.ofDepth session.nestingBound) ⟨true, true⟩
        (replayUndo (.ofDepth session.nestingBound) true 1)) ⟨true, true⟩ command.name []).on
          (session.enter command.name) := by
  rw [running, runRecorded, alone, dispatch, Action.on_bind]
  rcases (obeyToken _ _ _ _).on _ with ⟨_ | _, after⟩ <;> rfl

theorem paper_of_ok {word : String} {ledger : Ledger}
    (done : (paper word).on session = (.ok ledger, after)) :
    session.model = some ledger ∧ session = after := by
  rw [on_paper] at done
  obtain ⟨found, rfl⟩ := Prod.mk.inj done
  cases held : session.model with
  | none =>
      rw [held] at found
      cases found
  | some other =>
      rw [held] at found
      exact ⟨congrArg some (Except.ok.inj found), rfl⟩

theorem files_of_withFiles {step : FileTree → Except Fault Unit × FileTree}
    (done : (withFiles step).on session = (.ok (), after)) :
    step session.world.files = (.ok (), after.world.files) := by
  rw [withFiles, Action.on_of] at done
  obtain ⟨outcome, rfl⟩ := Prod.mk.inj done
  exact Prod.ext outcome rfl

theorem writeDocument_of_ok {encoding : Encoding}
    (done : (writeDocument encoding).on session = (.ok (), after)) :
    ∃ path ledger document, session.filename = some path ∧ session.model = some ledger ∧
      document.path = path ∧ document.encoding = encoding ∧
      document.color = session.documentColor encoding ∧
      session.engine.write session.world.files ledger document = (.ok (), after.world.files) := by
  obtain ⟨path, _, reads, done⟩ := ok_of_bind done
  have looks (word : String) : Looks (requiredFilename word) := fun session => by
    rw [on_requiredFilename]
  obtain rfl := (looks _).eq reads
  have named := filename_of_required reads
  obtain ⟨_, _, got, done⟩ := ok_of_bind done
  cases got
  obtain ⟨_, _, free, done⟩ := ok_of_bind done
  obtain rfl := (looks_refuseIf _ _).eq free
  obtain ⟨_, _, titled, done⟩ := ok_of_bind done
  obtain rfl := (looks_refuseIf _ _).eq titled
  obtain ⟨ledger, _, found, done⟩ := ok_of_bind done
  obtain ⟨held, rfl⟩ := paper_of_ok found
  obtain ⟨_, _, notes, done⟩ := ok_of_bind done
  cases notes
  obtain ⟨_, wrote, writes, clears⟩ := ok_of_bind done
  cases clears
  have writes := files_of_withFiles writes
  simp only [noting, (session.world.note_surroundings _).1] at writes
  exact ⟨path, ledger, _, named, held, rfl, rfl, rfl, writes⟩

/-! ## Exporting and opening -/

theorem exported_of_success (exported : session.failure (Command.write .archive).name = none) :
    ∃ path ledger document, session.filename = some path ∧ session.model = some ledger ∧
      document.path = path ∧ document.encoding = .archive ∧
      document.color = session.documentColor .archive ∧
      session.engine.write session.world.files ledger document =
        (.ok (), (session.executed (Command.write .archive).name).world.files) := by
  obtain ⟨after, runs, leaves⟩ := running_of_success exported
  rw [running_command (by decide +kernel)] at runs
  obtain ⟨reached, done, rfl⟩ := obeyToken_command runs
  obtain ⟨path, ledger, document, named, held, written⟩ :=
    @writeDocument_of_ok (session.enter (Command.write .archive).name) reached .archive done
  refine ⟨path, ledger, document, named, held, ?_⟩
  rw [leaves]
  exact written

theorem on_obeyToken_reopen (rooted : Level.root ≤ session.access)
    (unstopped : session.world.watch.stopped = false) {nested : Nested} {scope : Scope}
    {takeBack : List String → Action Unit} {rest : List String} :
    (obeyToken (obey nested scope takeBack) scope Command.reopen.name rest).on session =
      (reopen scope rest >>= fun _ =>
        if scope.recording && Command.reopen ≠ .undo then modify applying else pure ()).on session := by
  have granted : (permit .reopen).on session = (.ok (), session) := on_permit_of_ready rooted rfl
  rw [obeyToken_command_eq, on_bind_of_ok (on_checkpoint_of_unstopped unstopped scope), obeyCommand,
    on_bind_of_ok granted]
  rfl

theorem opened_cases (rooted : Level.root ≤ session.access)
    (unstopped : session.world.watch.stopped = false) (named : session.filename = some path) :
    match session.engine.openArchive session.world.files path with
    | .error fault => session.failure Command.reopen.name = some fault
    | .ok archive =>
        session.failure Command.reopen.name = none ∧
          (session.executed Command.reopen.name).color =
            archive.color.getD session.settings.resetColor ∧
          (session.executed Command.reopen.name).model = some archive.ledger := by
  have runs := @running_command .reopen (by decide +kernel) session
  rw [@on_obeyToken_reopen (session.enter Command.reopen.name) rooted unstopped, Action.on_bind,
    @on_reopen (session.enter Command.reopen.name) path named] at runs
  have files : (session.enter Command.reopen.name).engine.openArchive
      (session.enter Command.reopen.name).world.files path =
        session.engine.openArchive session.world.files path := rfl
  rw [files] at runs
  cases opens : session.engine.openArchive session.world.files path with
  | error fault =>
      rw [opens] at runs
      rw [failure_eq, runs]
      rfl
  | ok archive =>
      rw [opens] at runs
      obtain ⟨done, leaves⟩ := success_of_running runs
      rw [leaves]
      exact ⟨done, rfl, rfl⟩

/-- A session that finds an archive where another one has exported it, and that may open it. -/
structure Finds (exporter opener : Session) : Prop where
  plain : opener.engine = .plain
  settings : opener.settings.resetColor = exporter.settings.resetColor
  filename : opener.filename = exporter.filename
  files : opener.world.files = (exporter.executed "export-ori").world.files
  rooted : Level.root ≤ opener.access
  unstopped : opener.world.watch.stopped = false

theorem getD_documentColor (session : Session) :
    (session.documentColor .archive).getD session.settings.resetColor = session.color := by
  unfold documentColor
  split
  · rename_i standard
    exact standard.2.symm
  · rfl

variable {exporter : Session} {ledger : Ledger}

/-- What opening an archive comes to depends on the coordinates of the ledger only. -/
theorem reopened_cases (plain : exporter.engine = .plain) (held : exporter.model = some ledger)
    (exported : exporter.failure "export-ori" = none) (finds : Finds exporter opener) :
    match ledger.reread? with
    | none => opener.failure "open" = some (.sheet .unreadableArchive)
    | some reread =>
        opener.failure "open" = none ∧ (opener.executed "open").color = exporter.color ∧
          (opener.executed "open").model = some reread := by
  obtain ⟨path, ledger', document, named, held', rfl, archive, color, written⟩ :=
    exported_of_success exported
  obtain rfl := Option.some.inj (held.symm.trans held')
  rw [plain] at written
  have opens := Engine.openArchive_of_write archive written
  have opened := opened_cases finds.rooted finds.unstopped (finds.filename.trans named)
  have files : opener.world.files =
      (exporter.executed (Command.write .archive).name).world.files := finds.files
  rw [finds.plain, files, opens, finds.settings] at opened
  cases reread : ledger.reread? with
  | none =>
      rw [reread] at opened
      exact opened
  | some reread' =>
      rw [reread] at opened
      dsimp only at opened
      rw [color, getD_documentColor] at opened
      exact opened

/-- A ledger whose coordinates are read back as they were is restored from its archive with its color,
and without what was undone; a session that opens what another one has exported has its color again. -/
theorem archive_restores (same : ∀ x ∈ ledger.coordinates, x.reread? = some x) :
    (∀ {files written : FileTree} {document : Document}, document.encoding = .archive →
      Engine.plain.write files ledger document = (.ok (), written) →
        Engine.plain.openArchive written document.path =
          .ok ⟨document.color, ⟨ledger.outline, ledger.journal, []⟩⟩) ∧
      ∀ {exporter opener : Session}, exporter.engine = .plain → exporter.model = some ledger →
        exporter.failure "export-ori" = none → Finds exporter opener →
          opener.failure "open" = none ∧ (opener.executed "open").color = exporter.color ∧
            (opener.executed "open").model = some ⟨ledger.outline, ledger.journal, []⟩ := by
  have reread := Ledger.reread?_self same
  refine ⟨fun archive written => ?_, fun plain held exported finds => ?_⟩
  · rw [Engine.openArchive_of_write archive written, reread]
  · have cases := reopened_cases plain held exported finds
    rwa [reread] at cases

/-- A session with a crease, a fold by a negative angle and one that was undone, on paper of the color
that archives leave out. -/
def creased : Session :=
  fresh.executedAll ["paper [square] new", "target [10 10] plane [1 0 0] [1 0.1 0] angle [-90] rotate",
    "plane [2 0 0] [1 0 0] reflect", "undo", "uncolor filename [a.ori]"]

theorem creased_engine : creased.engine = .plain := by
  rw [creased, executedAll_engine]
  rfl

/-- The session that has exported its paper, painted anew and raised to open it. -/
def overpainted (session : Session) : Session :=
  { session.executed "export-ori" with color := .blue, access := .root }

theorem finds_overpainted {session : Session} (plain : session.engine = .plain)
    (same : (session.executed "export-ori").settings = session.settings ∧
      (session.executed "export-ori").filename = session.filename ∧
      (session.executed "export-ori").world.watch.stopped = false) :
    Finds session session.overpainted where
  plain := (executed_engine session "export-ori").trans plain
  settings := congrArg Settings.resetColor same.1
  filename := same.2.1
  files := rfl
  rooted := Nat.le_refl _
  unstopped := same.2.2

theorem creased_exports :
    ∃ ledger, creased.model = some ledger ∧ ledger.undone ≠ [] ∧
      (∀ x ∈ ledger.coordinates, x.reread? = some x) ∧ creased.failure "export-ori" = none ∧
      Finds creased creased.overpainted := by
  obtain ⟨present, undone, same, exported, kept⟩ :
      creased.model.isSome = true ∧ (creased.model.map Ledger.undone).getD [] ≠ [] ∧
        (∀ x ∈ (creased.model.map Ledger.coordinates).getD [], x.reread? = some x) ∧
        creased.failure "export-ori" = none ∧
        (creased.executed "export-ori").settings = creased.settings ∧
        (creased.executed "export-ori").filename = creased.filename ∧
        (creased.executed "export-ori").world.watch.stopped = false := by
    decide +kernel
  obtain ⟨ledger, held⟩ := Option.isSome_iff_exists.1 present
  rw [held] at undone same
  exact ⟨ledger, held, undone, same, exported, finds_overpainted creased_engine kept⟩

/-- An archive by itself, that keeps a color. -/
def blueprint : Document :=
  { encoding := .archive
    path := "b.ori"
    color := some .blue
    title := none
    hasTexture := false
    frameSize := 250
    direction := .zAxis }

theorem blueprint_written (ledger : Ledger) :
    (Engine.plain.write (.empty []) ledger blueprint).1 = .ok () := rfl

theorem archive_restores_creased :
    ∃ ledger, creased.model = some ledger ∧ ledger.undone ≠ [] ∧
      Engine.plain.openArchive (Engine.plain.write (.empty []) ledger blueprint).2 "b.ori" =
        .ok ⟨some .blue, ⟨ledger.outline, ledger.journal, []⟩⟩ ∧
      creased.color = creased.settings.resetColor ∧ creased.overpainted.color ≠ creased.color ∧
      creased.overpainted.failure "open" = none ∧
      (creased.overpainted.executed "open").color = creased.color ∧
      (creased.overpainted.executed "open").model =
        some ⟨ledger.outline, ledger.journal, []⟩ := by
  obtain ⟨ledger, held, undone, same, exported, finds⟩ := creased_exports
  have colors : creased.color = creased.settings.resetColor ∧ Color.blue ≠ creased.color := by
    decide +kernel
  obtain ⟨alone, within⟩ := archive_restores same
  have restored : Engine.plain.openArchive (Engine.plain.write (.empty []) ledger blueprint).2
      blueprint.path = .ok ⟨blueprint.color, ⟨ledger.outline, ledger.journal, []⟩⟩ :=
    alone rfl (Prod.ext (blueprint_written ledger) rfl)
  exact ⟨ledger, held, undone, restored, colors.1, colors.2,
    within creased_engine held exported finds⟩

/-- What has been exported can be opened if all coordinates of the outline and of the journal are finite,
and only then. -/
theorem exported_opens_iff (plain : exporter.engine = .plain) (held : exporter.model = some ledger)
    (exported : exporter.failure "export-ori" = none) (finds : Finds exporter opener) :
    opener.failure "open" = none ↔ ∀ x ∈ ledger.coordinates, x.isFinite = true := by
  have cases := reopened_cases plain held exported finds
  rw [← Ledger.isSome_reread?]
  cases reread : ledger.reread? with
  | none =>
      rw [reread] at cases
      simp [cases]
  | some reread' =>
      rw [reread] at cases
      simp [cases.1]

theorem exported_opens_iff_creased :
    creased.failure "export-ori" = none ∧ creased.overpainted.failure "open" = none := by
  obtain ⟨ledger, held, -, same, exported, finds⟩ := creased_exports
  refine ⟨exported, (exported_opens_iff creased_engine held exported finds).2 fun x among => ?_⟩
  rw [← x.isSome_reread?, same x among]
  rfl

/-- The plane is accepted, as its normal has a length, but its point is not a finite one. -/
def boundless : Session :=
  fresh.executedAll ["paper [square] new", "plane [inf 0 0] [1 0 0] reflect", "filename [a.ori]"]

theorem boundless_not_opened :
    boundless.failure "export-ori" = none ∧
      boundless.overpainted.failure "open" = some (.sheet .unreadableArchive) := by
  have engine : boundless.engine = .plain := by
    rw [boundless, executedAll_engine]
    rfl
  obtain ⟨present, infinite, exported, kept⟩ :
      boundless.model.isSome = true ∧
        (∃ x ∈ (boundless.model.map Ledger.coordinates).getD [], x.isFinite = false) ∧
        boundless.failure "export-ori" = none ∧
        (boundless.executed "export-ori").settings = boundless.settings ∧
        (boundless.executed "export-ori").filename = boundless.filename ∧
        (boundless.executed "export-ori").world.watch.stopped = false := by
    decide +kernel
  obtain ⟨ledger, held⟩ := Option.isSome_iff_exists.1 present
  obtain ⟨x, among, infinite⟩ := infinite
  rw [held] at among
  have unread : ledger.reread? = none := by
    rw [← Option.not_isSome_iff_eq_none, Ledger.isSome_reread?]
    intro finite
    rw [finite x among] at infinite
    cases infinite
  have cases := reopened_cases engine held exported (finds_overpainted engine kept)
  rw [unread] at cases
  exact ⟨exported, cases⟩

end Session

end PaperFolding
