import PaperFolding.Proofs.Session.Arriving
import PaperFolding.Proofs.Session.Facing
import PaperFolding.Proofs.Session.Sight.Matching

/-!
The commands that start the history anew: what each of them writes there, and what it does in two sessions
that look the same but for their paper.
-/

namespace PaperFolding

open Script

namespace Session

/-- How a statement names a file and hands it to a command. -/
def fileConstruction (command : Command) (path : String) : String :=
  "filename [" ++ path ++ "] " ++ command.name

end Session

/-- What the command starts the history anew with, in front of what follows it. -/
def Deed.construction (deed : Deed) : String :=
  match deed.command with
  | .new => deed.session.stage.construction
  | command => Session.fileConstruction command (deed.session.filename.getD "")

namespace Session

variable {scope : Scope} {rest : List String} {session after first second : Session} {depth : Nat}
  {takeBack : List String → Action Unit} {command : Command}

/-! ## What they write -/

theorem rebasing_history (recording : scope.recording = true) (construction : String)
    (rest : List String) (session : Session) :
    (session.rebasing scope construction rest).history =
      [rebasedEntry session.draft.lead construction rest] := by
  rw [rebasing, if_pos recording]
  rfl

theorem fileConstruction_eq {behind : String} (path : String) (same : "] " ++ command.name = behind) :
    "filename [" ++ path ++ behind = fileConstruction command path := by
  rw [fileConstruction, ← same, String.append_assoc, String.append_assoc, String.append_assoc]

theorem load_of_ok (done : (load (.ofDepth depth) scope rest).on session = (.ok (), after)) :
    ∃ (path : String) (loaded : Session), session.filename = some path ∧
      loaded.draft.lead = session.draft.lead ∧
      after = { loaded.rebasing scope (fileConstruction .load path) rest with stage := .empty } := by
  obtain ⟨⟨path, source⟩, opened, reads, done⟩ := ok_of_bind done
  obtain rfl := (looks_scriptFile _).eq reads
  obtain ⟨_, loaded, loads, done⟩ := ok_of_bind done
  obtain ⟨_, _, rebases, clears⟩ := ok_of_bind done
  cases rebases
  cases clears
  have named : session.filename = some path := by
    rw [on_scriptFile] at reads
    cases filename : session.filename with
    | none =>
        rw [filename] at reads
        cases reads
    | some path' =>
        simp only [filename] at reads
        split at reads
        · cases reads
        · cases reads
          rfl
  have kept := groundwork_load_ofDepth depth scope.cancellable source session
  rw [loads] at kept
  refine ⟨path, loaded, named, congrArg Prod.snd kept, ?_⟩
  rw [← fileConstruction_eq path (by decide : "] " ++ Command.load.name = "] load")]

theorem on_reopen {path : String} (named : session.filename = some path) (scope : Scope)
    (rest : List String) :
    (reopen scope rest).on session =
      match session.engine.openArchive session.world.files path with
      | .error fault => (.error fault, session.noting (.archive path))
      | .ok archive => (.ok (), ({ session.noting (.archive path) with
          color := archive.color.getD session.settings.resetColor }.replacing archive.ledger).rebasing
            scope (fileConstruction .reopen path) rest) := by
  have files : (session.noting (.archive path)).world.files = session.world.files :=
    (session.world.note_surroundings _).1
  have engine : (session.noting (.archive path)).engine = session.engine := rfl
  have read : (requiredFilename Command.reopen.name).on session = (.ok path, session) := by
    rw [on_requiredFilename, named]
  rw [← fileConstruction_eq path (by decide : "] " ++ Command.reopen.name = "] open"), reopen,
    on_bind_of_ok read, on_bind_of_ok (on_note _ session), on_bind_of_ok (Action.on_get _),
    on_bind_of_ok (Action.on_get _), Action.on_bind, on_lift, files, engine]
  cases session.engine.openArchive session.world.files path <;> rfl

theorem reopen_of_ok (done : (reopen scope rest).on session = (.ok (), after)) :
    ∃ path archive, session.filename = some path ∧
      session.engine.openArchive session.world.files path = .ok archive ∧
      after = ({ session.noting (.archive path) with
        color := archive.color.getD session.settings.resetColor }.replacing archive.ledger).rebasing
          scope (fileConstruction .reopen path) rest := by
  cases named : session.filename with
  | none =>
      obtain ⟨path, _, reads, -⟩ := ok_of_bind done
      rw [on_requiredFilename, named] at reads
      cases reads
  | some path =>
      rw [on_reopen named] at done
      cases opens : session.engine.openArchive session.world.files path with
      | error fault =>
          rw [opens] at done
          cases done
      | ok archive =>
          rw [opens] at done
          cases done
          exact ⟨path, archive, rfl, opens, rfl⟩

/-- A command that starts the history anew leaves one entry: what has been noted of the appearance, the
construction, and the rest of the statement. -/
theorem history_of_renewal (ordinary : Ordinary session) (recording : scope.recording = true)
    (renews : command ∈ rewriters)
    (done : (obey (.ofDepth depth) scope takeBack command rest).on session = (.ok (), after)) :
    after.history =
      [rebasedEntry session.draft.lead (Deed.construction ⟨command, session⟩) rest] := by
  simp only [rewriters, List.mem_cons, List.not_mem_nil, or_false] at renews
  rcases renews with rfl | rfl | rfl
  · obtain ⟨-, ledger, -, rfl⟩ := making_of_ok ordinary done
    exact rebasing_history recording _ rest _
  · obtain ⟨path, loaded, named, lead, rfl⟩ := load_of_ok done
    rw [Deed.construction, ← lead]
    simp only [named, Option.getD_some]
    exact rebasing_history recording _ rest loaded
  · obtain ⟨path, archive, named, -, rfl⟩ := reopen_of_ok done
    rw [Deed.construction]
    simp only [named, Option.getD_some]
    exact rebasing_history recording _ rest _

/-! ## What they do in two sessions -/

theorem Matching.applying {sight : Sight} (matching : Matching sight first second) :
    Matching sight first.applying second.applying :=
  ⟨matching.resembles.applying, matching.camera, matching.locale⟩

theorem Matching.makePaper (matching : Matching (.blindfold true) first second)
    (sheet : first.stage.SameSheet second.stage) (scope : Scope) (rest : List String) :
    Meets (Matching (.ofPaper true)) ((makePaper scope rest).on first)
      ((Session.makePaper scope rest).on second) := by
  have facing : Facing true true first second := ⟨matching.resembles, fun _ => sheet⟩
  have preserves := (still_makePaper scope rest).outlook
  exact matching.of_preserves (facing.makePaper scope rest) preserves preserves

/-- The same document is opened in both sessions. What is staged is left there. -/
theorem Matching.reopen (matching : Matching (.blindfold true) first second)
    (staged : first.stage = second.stage) (scope : Scope) (rest : List String) :
    Meets (Matching (.ofPaper true)) ((reopen scope rest).on first)
      ((Session.reopen scope rest).on second) := by
  have preserves := outlook_reopen scope rest
  refine matching.of_preserves ?_ preserves preserves
  have meets := blind_reopen scope rest first second matching.resembles
  refine ⟨meets.outcome, fun value done => ?_⟩
  have done' := meets.outcome.trans done
  obtain ⟨path, archive, named, opens, ends⟩ := reopen_of_ok (Prod.ext done rfl)
  obtain ⟨path', archive', named', opens', ends'⟩ := reopen_of_ok (Prod.ext done' rfl)
  obtain rfl : path = path' := Option.some.inj (by rw [← named, ← named', matching.resembles.filename])
  obtain rfl : archive = archive' := by
    rw [matching.resembles.engine, matching.resembles.files, opens'] at opens
    exact (Except.ok.inj opens).symm
  have model := (congrArg Session.model ends).trans (rebasing_model _ _ _ _)
  have model' := (congrArg Session.model ends').trans (rebasing_model _ _ _ _)
  have stage : Preserves Session.stage (Session.reopen scope rest) := stage_reopen
  exact { meets.related value done with
    model := fun _ => model.trans model'.symm
    stage := fun _ => (stage first).trans (staged.trans (stage second).symm) }

end Session

end PaperFolding
