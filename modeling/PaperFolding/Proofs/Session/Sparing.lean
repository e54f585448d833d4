import PaperFolding.Proofs.Files.Growth
import PaperFolding.Proofs.Session.Deeds
import PaperFolding.Proofs.Session.HistoryShape

/-!
Sessions whose operator declines every request. At the lowest level nothing that they do changes a file
that is there, and at higher levels nothing does that is not told to write one; this holds for the
scripts they run as well, which never get above the lowest level.
-/

namespace PaperFolding

open Script

/-- Nothing has become of the surroundings but more files and, unless `quiet` holds, a longer transcript;
no reply of the operator has become a grant. -/
structure Spares (quiet : Prop) (before after : Surroundings) : Prop where
  engine : after.engine = before.engine
  access : after.access = before.access
  declines : true ∉ before.replies → true ∉ after.replies
  files : before.files.Extends after.files
  transcript : quiet → after.transcript = before.transcript

namespace Spares

variable {quiet : Prop}

theorem refl (surroundings : Surroundings) : Spares quiet surroundings surroundings :=
  ⟨rfl, rfl, id, .refl _, fun _ => rfl⟩

theorem of_eq {before after : Surroundings} (same : after = before) : Spares quiet before after := by
  rw [same]
  exact refl before

theorem trans {first second third : Surroundings} (earlier : Spares quiet first second)
    (later : Spares quiet second third) : Spares quiet first third where
  engine := later.engine.trans earlier.engine
  access := later.access.trans earlier.access
  declines := later.declines ∘ earlier.declines
  files := earlier.files.trans later.files
  transcript hush := (later.transcript hush).trans (earlier.transcript hush)

theorem seen {before after : Session}
    (spares : Spares quiet before.surroundings after.surroundings) :
    before.world.files.Extends after.world.files ∧ after.access = before.access ∧
      (quiet → after.transcript = before.transcript) :=
  ⟨spares.files, spares.access, spares.transcript⟩

end Spares

/-- At the lowest level a deed does no harm; at others it does none if it overwrites nothing and, if
`quiet` holds, does not report. -/
def Deed.Tame (quiet : Prop) (deed : Deed) : Prop :=
  deed.session.access = .user ∨ deed.overwrites = false ∧ (quiet → deed.command ≠ .diagnose)

namespace Session

/-- The operator of the session declines every request, and its engine is the plain one. -/
structure Meek (session : Session) : Prop where
  plain : session.engine = .plain
  declines : true ∉ session.world.operator.replies

def Sparing {α : Type} (quiet : Prop) (action : Action α) (session : Session) : Prop :=
  Spares quiet session.surroundings (action.on session).2.surroundings

variable {α β : Type} {quiet : Prop} {session after : Session}

theorem Meek.of_spares (meek : Meek session)
    (spares : Spares quiet session.surroundings after.surroundings) : Meek after :=
  ⟨spares.engine.trans meek.plain, spares.declines meek.declines⟩

theorem Meek.of_eq (meek : Meek session) (same : after.surroundings = session.surroundings) :
    Meek after := meek.of_spares (.of_eq same : Spares True _ _)

theorem Meek.withAccess (meek : Meek session) {level : Level} : Meek (session.withAccess level) :=
  ⟨meek.plain, meek.declines⟩

theorem Silent.sparing {action : Action α} (silent : Silent action) (session : Session) :
    Sparing quiet action session := .of_eq (silent session)

namespace Sparing

theorem bind {first : Action α} {next : α → Action β} (front : Sparing quiet first session)
    (others : ∀ value after, first.on session = (.ok value, after) →
      Spares quiet session.surroundings after.surroundings → Sparing quiet (next value) after) :
    Sparing quiet (first >>= next) session := by
  unfold Sparing at *
  rw [Action.on_bind]
  revert front others
  rcases first.on session with ⟨_ | value, after⟩
  · exact fun front _ => front
  · exact fun front others => front.trans (others value after rfl front)

theorem looking {first : Action α} {next : α → Action β} (looks : Looks first)
    (others : ∀ value, first.on session = (.ok value, session) →
      Sparing quiet (next value) session) : Sparing quiet (first >>= next) session := by
  refine bind (.of_eq (congrArg surroundings (looks session))) fun value after done _ => ?_
  obtain rfl := looks.eq done
  exact others value done

end Sparing

/-! ## Single commands -/

theorem of_refuseIf {condition : Prop} [Decidable condition] {fault : Fault}
    (done : (refuseIf condition fault).on session = (.ok (), after)) : ¬ condition := by
  intro holds
  rw [on_refuseIf, if_pos holds] at done
  cases done

theorem filename_of_required {word path : String}
    (done : (requiredFilename word).on session = (.ok path, session)) :
    session.filename = some path := by
  rw [on_requiredFilename] at done
  cases named : session.filename with
  | none =>
      rw [named] at done
      cases done
  | some other =>
      rw [named] at done
      cases done
      rfl

theorem absent_of_tame {encoding : Encoding} {path : String}
    (tame : Deed.Tame quiet ⟨.write encoding, session⟩) (named : session.filename = some path)
    (free : ¬ (session.world.files.has path && session.access < Level.root) = true) :
    session.world.files.has path = false := by
  rcases tame with user | ⟨fresh, -⟩
  · have below : session.access < Level.root := by
      rw [user]
      decide
    simpa [below] using free
  · simpa [Deed.overwrites, named] using fresh

theorem sparing_withFiles {engine : Engine} (plain : engine = .plain) {document : Document}
    (absent : session.world.files.has document.path = false) (ledger : Ledger) :
    Sparing quiet (withFiles fun files => engine.write files ledger document) session := by
  subst plain
  exact ⟨rfl, rfl, id, Engine.extends_of_plain_write absent ledger, fun _ => rfl⟩

theorem sparing_writeDocument (meek : Meek session) {encoding : Encoding}
    (tame : Deed.Tame quiet ⟨.write encoding, session⟩) :
    Sparing quiet (writeDocument encoding) session := by
  refine .looking (fun session => by rw [on_requiredFilename]) fun path named => ?_
  refine .looking (fun _ => rfl) fun _ got => ?_
  cases got
  refine .looking (looks_refuseIf _ _) fun _ free => ?_
  refine .looking (looks_refuseIf _ _) fun _ _ => ?_
  refine .looking (fun session => by rw [on_paper]) fun ledger _ => ?_
  refine .bind ((Silent.note _).sparing session) fun _ noted done spares => ?_
  have absent : noted.world.files.has path = false := by
    obtain rfl := congrArg Prod.snd done
    rw [on_note, noting, (session.world.note_surroundings _).1]
    exact absent_of_tame tame (filename_of_required named) (of_refuseIf free)
  refine .bind ?_ fun _ _ _ _ => Silent.clearStage.sparing _
  refine sparing_withFiles meek.plain ?_ ledger
  exact absent

theorem sparing_elevate (meek : Meek session) (request : Elevation) :
    Sparing quiet (elevate request) session := by
  have refused := Operator.confirm_of_declines meek.declines request
  unfold Sparing
  simp only [elevate, Action.on_modify]
  split
  · exact .refl _
  · refine ⟨rfl, ?_, fun declines among => declines (List.mem_of_mem_tail among), .refl _,
      fun _ => rfl⟩
    show (if (session.world.operator.confirm request).1 then request.level else session.access) = _
    rw [refused]
    rfl

theorem sparing_diagnose (aloud : ¬ quiet) : Sparing quiet diagnose session := by
  refine .looking (fun session => by rw [on_paper]) fun ledger _ => ?_
  exact ⟨rfl, rfl, id, .refl _, fun hush => absurd hush aloud⟩

/-- Scripts that are run so deep spare what surrounds the paper. -/
def SparesScripts (quiet : Prop) (depth : Nat) : Prop :=
  ∀ cancellable source session, Meek session →
    Sparing quiet ((Nested.ofDepth depth).load cancellable source) session ∧
    Sparing quiet ((Nested.ofDepth depth).compile cancellable source) session

section Commands

variable {depth : Nat} {scope : Scope} {takeBack : List String → Action Unit} {rest : List String}

theorem sparing_undoOr {otherwise : Action Unit}
    (bare : session.depth.getD 0 = 0 → Sparing quiet otherwise session) :
    Sparing quiet (undoOr otherwise) session := by
  refine .looking (fun _ => rfl) fun _ got => ?_
  cases got
  refine .bind ?_ fun _ _ _ _ => Silent.clearStage.sparing _
  split
  · exact (silent_fold _ _ _).sparing session
  · rename_i unready
    exact bare (Nat.eq_zero_of_not_pos unready)

theorem sparing_obey (scripts : SparesScripts quiet depth) (meek : Meek session)
    {command : Command} (permitted : ((permit command).on session).1 = .ok ())
    (tame : Deed.Tame quiet ⟨command, session⟩)
    (bare : command = .undo → session.depth.getD 0 = 0 → Sparing quiet (takeBack rest) session) :
    Sparing quiet (obey (.ofDepth depth) scope takeBack command rest) session := by
  by_cases outward : Outward command
  · cases outward with
    | write encoding => exact sparing_writeDocument meek tame
    | diagnose =>
        refine sparing_diagnose fun hush => ?_
        rcases tame with user | ⟨-, silent⟩
        · exact absurd (user ▸ access_of_permit permitted) (by decide)
        · exact silent hush rfl
    | elevate request => exact sparing_elevate meek request
    | load =>
        refine .looking (looks_scriptFile _) fun (path, source) _ => ?_
        refine .bind (scripts _ source session meek).1 fun _ _ _ _ => ?_
        exact Silent.sparing (.bind (Silent.rebase _ _ _) fun _ => Silent.clearStage) _
    | compile =>
        refine .looking (looks_scriptFile _) fun (path, source) _ => ?_
        exact .bind (scripts _ source session meek).2 fun _ _ _ _ => Silent.clearStage.sparing _
    | undo => exact sparing_undoOr (bare rfl)
  · exact (silent_obey outward rest).sparing session

end Commands

/-! ## Scripts -/

theorem applying_if_silent (condition : Prop) [Decidable condition] :
    Silent (if condition then modify applying else pure ()) := by
  split
  · exact .modify fun _ => rfl
  · exact .pure _

section Scripts

variable {depth : Nat} {scope : Scope} {takeBack : List String → Action Unit} {token : String}
  {rest row : List String}

theorem silent_obeyParameter (parameter : Parameter) :
    Silent (obeyParameter scope parameter rest) := by
  refine .bind (Silent.obey parameter _) fun _ => ?_
  split
  · exact .modify fun _ => rfl
  · exact .pure _

theorem sparing_obeyToken (scripts : SparesScripts quiet depth) (meek : Meek session)
    (tame : ∀ deed ∈ deed? scope token session, deed.Tame quiet)
    (bare : ∀ deed ∈ deed? scope token session, deed.StartsOver →
      Sparing quiet (takeBack rest) session) :
    Sparing quiet (obeyToken (obey (.ofDepth depth) scope takeBack) scope token rest) session := by
  unfold obeyToken
  split
  · exact .of_eq rfl
  · refine .looking (looks_checkpoint scope) fun _ checked => ?_
    unfold obeyWord
    split
    · rename_i command found
      refine .looking (looks_permit command) fun _ granted => ?_
      refine .bind ?_ fun _ _ _ _ => (applying_if_silent _).sparing _
      have does := deed?_of_permit found checked granted
      exact sparing_obey scripts meek (congrArg Prod.fst granted) (tame _ does)
        fun undoes anew => bare _ does ⟨undoes, anew⟩
    · exact (silent_obeyParameter _).sparing session
    · exact .of_eq rfl

/-- Rows that can be obeyed with no harm to what surrounds the paper, if starting over does none. -/
structure Harmless (quiet : Prop) (depth : Nat) (scope : Scope) (takeBack : List String → Action Unit)
    (row : List String) (session : Session) : Prop where
  meek : Meek session
  -- It takes a grant to leave the lowest level, so there nothing is asked of the commands that follow.
  tame : session.access = .user ∨
    ∀ deed ∈ deedsAlong (obey (.ofDepth depth) scope takeBack) scope row session, deed.Tame quiet
  bare : ∀ deed ∈ deedsAlong (obey (.ofDepth depth) scope takeBack) scope row session,
    Meek deed.session → deed.StartsOver → ∀ rest, Sparing quiet (takeBack rest) deed.session

theorem Harmless.first (scripts : SparesScripts quiet depth)
    (harmless : Harmless quiet depth scope takeBack (token :: rest) session) :
    Sparing quiet (obeyToken (obey (.ofDepth depth) scope takeBack) scope token rest) session := by
  have among {deed : Deed} (does : deed ∈ deed? scope token session) :
      deed ∈ deedsAlong (obey (.ofDepth depth) scope takeBack) scope (token :: rest) session := by
    rw [deedsAlong]
    exact List.mem_append_left _ (by simpa using does)
  refine sparing_obeyToken scripts harmless.meek (fun deed does => ?_) fun deed does anew => ?_
  · rcases harmless.tame with user | tame
    · obtain rfl := (deed?_eq_some does).1
      exact .inl user
    · exact tame deed (among does)
  · obtain rfl := (deed?_eq_some does).1
    exact harmless.bare deed (among does) harmless.meek anew rest

theorem Harmless.others (harmless : Harmless quiet depth scope takeBack (token :: rest) session)
    (done : (obeyToken (obey (.ofDepth depth) scope takeBack) scope token rest).on session =
      (.ok (), after))
    (spares : Spares quiet session.surroundings after.surroundings) :
    Harmless quiet depth scope takeBack rest after := by
  have later {deed : Deed}
      (among : deed ∈ deedsAlong (obey (.ofDepth depth) scope takeBack) scope rest after) :
      deed ∈ deedsAlong (obey (.ofDepth depth) scope takeBack) scope (token :: rest) session := by
    rw [deedsAlong_of_ok done]
    exact List.mem_append_right _ among
  exact ⟨harmless.meek.of_spares spares,
    harmless.tame.imp spares.access.trans fun tame deed among => tame deed (later among),
    fun deed among => harmless.bare deed (later among)⟩

/-- What surrounds the paper is spared by the whole row, and up to each command that is carried out. -/
theorem sparing_dispatch (scripts : SparesScripts quiet depth)
    (harmless : Harmless quiet depth scope takeBack row session) :
    Sparing quiet (dispatch (obey (.ofDepth depth) scope takeBack) scope row) session ∧
      ∀ deed ∈ deedsAlong (obey (.ofDepth depth) scope takeBack) scope row session,
        Spares quiet session.surroundings deed.session.surroundings := by
  induction row generalizing session with
  | nil => exact ⟨.of_eq rfl, fun _ among => absurd among List.not_mem_nil⟩
  | cons token rest induction =>
      have first := harmless.first scripts
      refine ⟨first.bind fun _ after done spares => ?_, fun deed among => ?_⟩
      · exact (induction (harmless.others done spares)).1
      · rcases mem_deedsAlong among with here | ⟨after, done, later⟩
        · rw [(deed?_eq_some here).1]
          exact .refl _
        · have spares : Spares quiet session.surroundings after.surroundings := by
            unfold Sparing at first
            rwa [done] at first
          exact spares.trans ((induction (harmless.others done spares)).2 deed later)

theorem sparing_runBody (scripts : SparesScripts quiet depth) (meek : Meek session)
    {cancellable : Bool} (tame : session.access = .user ∨
      ∀ deed ∈ bodyDeeds (.ofDepth depth) cancellable row session, deed.Tame quiet) :
    Sparing quiet (runBody (.ofDepth depth) cancellable row) session ∧
      ∀ deed ∈ bodyDeeds (.ofDepth depth) cancellable row session,
        Spares quiet session.surroundings deed.session.surroundings :=
  sparing_dispatch scripts ⟨meek, tame, fun _ _ _ _ _ => .of_eq rfl⟩

theorem sparing_atLevel {level : Level} {action : Action Unit}
    (sparing : Sparing quiet action (session.withAccess level)) :
    Sparing quiet (atLevel level action) session :=
  ⟨sparing.engine, rfl, sparing.declines, sparing.files, sparing.transcript⟩

theorem sparing_entries (scripts : SparesScripts quiet depth) {inside : Deed → List Deed}
    (meek : Meek session) {entries : List String}
    (tame : ∀ deed ∈ entryDeeds (.ofDepth depth) inside entries session, deed.Tame quiet) :
    Sparing quiet (entries.forM fun entry => runBody (.ofDepth depth) false (tokens entry))
      session := by
  induction entries generalizing session with
  | nil => exact .of_eq rfl
  | cons entry entries induction =>
      have own : ∀ deed ∈ bodyDeeds (.ofDepth depth) false (tokens entry) session,
          deed.Tame quiet := by
        intro deed among
        refine tame deed ?_
        rw [entryDeeds]
        exact List.mem_append_left _ (List.mem_append_left _ among)
      refine .bind (sparing_runBody scripts meek (.inr own)).1 fun _ after done spares => ?_
      rw [entryDeeds_of_ok done] at tame
      exact induction (meek.of_spares spares) fun deed among =>
        tame deed (List.mem_append_right _ among)

/-- Starting over does no harm if what is done again does none. -/
theorem sparing_replayUndo (scripts : SparesScripts quiet depth) {inside : Deed → List Deed}
    {deed : Deed} (meek : Meek deed.session) (anew : deed.StartsOver)
    (tame : ∀ inner ∈ replayDeeds (.ofDepth depth) inside deed, inner.Tame quiet)
    (rest : List String) : Sparing quiet (replayUndo (.ofDepth depth) true 1 rest) deed.session := by
  have shortened := surroundings_shortening true 1 deed.session
  refine .bind (.of_eq shortened) fun _ after done _ => ?_
  cases done
  refine .bind ?_ fun _ replayed _ _ => .of_eq (surroundings_resuming true rest replayed)
  refine .looking (fun _ => rfl) fun _ got => ?_
  cases got
  rw [replayDeeds, Deed.redone, if_pos anew] at tame
  exact sparing_atLevel (sparing_entries scripts (meek.of_eq shortened).withAccess tame)

theorem sparing_runRecorded (scripts : SparesScripts quiet depth) {inside : Deed → List Deed}
    (meek : Meek session) {cancellable : Bool}
    (tame : session.access = .user ∨
      ∀ deed ∈ recordedDeeds (.ofDepth depth) cancellable row session, deed.Tame quiet)
    (again : ∀ deed ∈ recordedDeeds (.ofDepth depth) cancellable row session,
      ∀ inner ∈ replayDeeds (.ofDepth depth) inside deed, inner.Tame quiet) :
    Sparing quiet (runRecorded (.ofDepth depth) cancellable row) session ∧
      ∀ deed ∈ recordedDeeds (.ofDepth depth) cancellable row session,
        Spares quiet session.surroundings deed.session.surroundings :=
  sparing_dispatch scripts ⟨meek, tame, fun deed among meek anew rest =>
    sparing_replayUndo scripts meek anew (again deed among) rest⟩

end Scripts

/-! ## Statements -/

section Statements

variable {depth : Nat} {cancellable : Bool} {statement : String} {deed : Deed}

theorem keeps_recorded (depth : Nat) (cancellable : Bool) (row : List String) (session : Session) :
    Keeps (.anywhere session.engine) session
      ((runRecorded (.ofDepth depth) cancellable row).on session).2 := by
  have admits := (Course.anywhere_reversible session.engine).admits
  have governs : Governs (Course.anywhere session.engine).conduct
      (obey (.ofDepth depth) ⟨true, cancellable⟩ (replayUndo (.ofDepth depth) true 1))
      (loadedFrom depth cancellable) :=
    governs_ofDepth depth ⟨true, cancellable⟩ (fun _ => trivial) fun permitted rest =>
      follows_replayUndo trivial permitted depth true 1 rest
  exact leads_dispatch governs row session (admits row) fun text _ => admits (tokens text)

theorem spares_concluding {run : Except Fault Unit × Session}
    (spares : Spares quiet session.surroundings run.2.surroundings)
    (keeps : Keeps (.anywhere session.engine) (session.enter statement) run.2) :
    Spares quiet session.surroundings (concluding run).2.surroundings := by
  obtain ⟨_ | _, ended⟩ := run
  · have same : ended.access = session.access := spares.access
    have rolled : (ended.rollback session.begin).surroundings = ended.surroundings := by
      rw [surroundings_rollback]
      show { ended.surroundings with access := session.access } = ended.surroundings
      rw [← same]
      rfl
    show Spares quiet session.surroundings ended.recover.surroundings
    rw [recover_of_keeps keeps, rolled]
    exact spares
  · exact spares

theorem sparing_attempt
    (ran : Sparing quiet (runRecorded (.ofDepth depth) cancellable (tokens statement))
      (session.enter statement)) :
    Sparing quiet (attempt (.ofDepth depth) cancellable statement) session := by
  unfold Sparing at *
  rw [on_attempt]
  exact spares_concluding ran
    (keeps_recorded depth cancellable (tokens statement) (session.enter statement))

/-- The entries that are done again are among those that the statement found. -/
theorem redone_isPrefix
    (among : deed ∈ recordedDeeds (.ofDepth depth) cancellable row (session.enter statement)) :
    deed.redone <+: session.history := by
  have entered : Leaves session.history session.history (session.enter statement) :=
    ⟨.refl _, .inl ⟨rfl, statement, rfl⟩⟩
  obtain ⟨⟨kept, leaves⟩, -⟩ := forall_deedsAlong
    (fun reached => ∃ kept, Leaves session.history kept reached)
    (fun ⟨_, leaves⟩ done => leaves.obeyToken done) ⟨_, entered⟩ among
  unfold Deed.redone
  split
  · exact (leaves.shortened 1).isPrefix
  · exact List.nil_prefix

theorem replayDeeds_of_redone (nested : Nested) (inside : Deed → List Deed)
    (nothing : deed.redone = []) : replayDeeds nested inside deed = [] := by
  rw [replayDeeds, nothing]
  rfl

/-- A sandbox begins without history, so starting over in it finds nothing to do again. -/
theorem replayDeeds_sandbox {source : String} {row : List String} (nested : Nested)
    (inside : Deed → List Deed)
    (among : deed ∈ recordedDeeds (.ofDepth depth) cancellable row (session.sandbox.enter source)) :
    replayDeeds nested inside deed = [] :=
  replayDeeds_of_redone nested inside (List.prefix_nil.1 (redone_isPrefix among))

theorem spares_closing {sandbox : Session}
    (spares : Spares quiet session.sandbox.surroundings sandbox.surroundings) :
    Spares quiet session.surroundings (closing sandbox session).surroundings where
  engine := rfl
  access := rfl
  declines := spares.declines
  files := spares.files
  transcript hush := by
    have silent : sandbox.transcript = [] := spares.transcript hush
    show session.transcript ++ sandbox.transcript = session.transcript
    rw [silent, List.append_nil]

theorem sparing_sandbox {source : String} {row : List String} (scripts : SparesScripts quiet depth)
    (meek : Meek session) :
    Sparing quiet (runRecorded (.ofDepth depth) cancellable row) (session.sandbox.enter source) ∧
      ∀ deed ∈ recordedDeeds (.ofDepth depth) cancellable row (session.sandbox.enter source),
        Spares quiet session.sandbox.surroundings deed.session.surroundings := by
  have entered : Meek (session.sandbox.enter source) := ⟨meek.plain, meek.declines⟩
  have again : ∀ deed ∈ recordedDeeds (.ofDepth depth) cancellable row (session.sandbox.enter source),
      ∀ inner ∈ replayDeeds (.ofDepth depth) (fun _ => []) deed, inner.Tame quiet := by
    intro deed among inner inside
    rw [replayDeeds_sandbox _ _ among] at inside
    cases inside
  exact sparing_runRecorded scripts entered (.inl rfl) again

theorem sparesScripts (quiet : Prop) (depth : Nat) : SparesScripts quiet depth := by
  induction depth with
  | zero => exact fun _ _ _ _ => ⟨.of_eq rfl, .of_eq rfl⟩
  | succ depth induction =>
      intro cancellable source session meek
      constructor
      · rw [Nested.load_ofDepth]
        exact sparing_atLevel (sparing_runBody induction meek.withAccess (.inl rfl)).1
      · rw [Nested.compile_ofDepth]
        have ran : Sparing quiet (attempt (.ofDepth depth) cancellable source) session.sandbox :=
          sparing_attempt (sparing_sandbox induction meek).1
        unfold Sparing
        rw [on_inSandbox]
        exact spares_closing ran

theorem spares_executed (meek : Meek session)
    (tame : session.access = .user ∨ ∀ deed ∈ session.deeds statement, deed.Tame quiet)
    (again : ∀ deed ∈ session.redoneDeeds statement, deed.Tame quiet) :
    Spares quiet session.surroundings (session.executed statement).surroundings ∧
      ∀ deed ∈ session.deeds statement,
        Spares quiet session.surroundings deed.session.surroundings := by
  have entered : Meek (session.enter statement) := ⟨meek.plain, meek.declines⟩
  obtain ⟨ran, reached⟩ := sparing_runRecorded (sparesScripts quiet session.nestingBound) entered tame
    fun deed among inner inside => again inner (List.mem_flatMap.2 ⟨deed, among, inside⟩)
  refine ⟨?_, reached⟩
  rw [executed, on_execute]
  exact sparing_attempt ran

end Statements

end Session

end PaperFolding
