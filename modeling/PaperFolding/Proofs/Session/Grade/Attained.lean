import PaperFolding.Proofs.Session.Archiving
import PaperFolding.Proofs.Session.Grade.Scripts
import PaperFolding.Proofs.Session.Loading

/-!
Sessions that are attained from a first one by whatever is asked of them, while nothing is opened but archives
that are admitted. They keep to a grade if these archives and the first session are of it.
-/

namespace PaperFolding

open Script

namespace Session

variable {admitted : Archive → Prop} {grade : Grade} {first session : Session} {statement : String}

/-- All that is opened in the course of the statement is admitted. -/
def OpensOnly (admitted : Archive → Prop) (session : Session) (statement : String) : Prop :=
  ∀ deed ∈ session.deeds statement ++ session.nestedDeeds statement, deed.Within admitted

/-- A session can be asked to execute statements, at any level and with or without a watch, to take
statements back and to give up its history or its transcript; and the world around it may change. -/
inductive Attained (admitted : Archive → Prop) (first : Session) : Session → Prop where
  | first : Attained admitted first first
  | executed {session : Session} {statement : String} : Attained admitted first session →
      session.OpensOnly admitted statement → Attained admitted first (session.executed statement)
  | supervised {session : Session} {statement : String} : Attained admitted first session →
      (session.setWatch true).OpensOnly admitted statement →
      Attained admitted first ((executeSupervised statement).on session).2
  | takenBack {session : Session} {steps : Nat} : Attained admitted first session →
      (∀ deed ∈ againDeeds session.nestingBound false steps session, deed.Within admitted) →
      Attained admitted first ((takeBack steps).on session).2
  | withAccess {session : Session} (level : Level) : Attained admitted first session →
      Attained admitted first (session.withAccess level)
  | resetHistory {session : Session} : Attained admitted first session →
      Attained admitted first session.resetHistory
  | drained {session : Session} : Attained admitted first session →
      Attained admitted first session.drainTranscript.2
  | elsewhere {session : Session} (world : World) : Attained admitted first session →
      Attained admitted first { session with world }

theorem Attained.graded (attained : Attained admitted first session)
    (admits : ∀ archive, admitted archive → grade.Admits archive) (graded : first.Graded grade) :
    session.Graded grade := by
  induction attained with
  | first => exact graded
  | executed _ opens induction =>
      exact induction.executed fun deed among => (opens deed among).mono admits
  | @supervised session statement _ opens induction =>
      have watched : (session.setWatch true).Graded grade := induction.elsewhere _
      have executed := watched.executed fun deed among => (opens deed among).mono admits
      rw [executeSupervised_session]
      exact executed.elsewhere _
  | @takenBack session steps _ opens induction =>
      rw [takeBack, Action.on_of]
      exact graded_replayUndo (loadsUphold grade session.nestingBound) induction false steps
        (fun deed among => (opens deed among).mono admits) []
  | withAccess level _ induction => exact induction.withAccess level
  | resetHistory _ induction => exact induction
  | drained _ induction => exact induction
  | elsewhere world _ induction => exact induction

/-! ## What statements open -/

/-- What runs no scripts and undoes nothing has nothing done inside of it. -/
theorem nestedDeeds_eq_nil (simple : ∀ deed ∈ session.deeds statement,
    deed.command ∉ [.load, .compile, .undo]) : session.nestedDeeds statement = [] := by
  apply List.flatMap_eq_nil_iff.2
  intro deed among
  have other := simple deed among
  simp only [List.mem_cons, List.not_mem_nil, or_false, not_or] at other
  obtain ⟨loads, compiles, undoes⟩ := other
  have again : deed.redone = [] := if_neg fun anew => undoes anew.1
  have inside : scriptDeeds session.nestingBound true deed = [] := by
    rw [nestingBound]
    unfold scriptDeeds
    dsimp only
    split
    · exact absurd ‹_› loads
    · exact absurd ‹_› compiles
    · rfl
  rw [replayDeeds_of_redone _ _ again, inside]
  rfl

theorem opensOnly_of_deeds (simple : ∀ deed ∈ session.deeds statement,
      deed.command ∉ [.load, .compile, .undo])
    (within : ∀ deed ∈ session.deeds statement, deed.Within admitted) :
    session.OpensOnly admitted statement := by
  rw [OpensOnly, nestedDeeds_eq_nil simple, List.append_nil]
  exact within

/-- A statement without commands opens nothing. -/
theorem opensOnly_of_commandless
    (idle : ∀ token ∈ tokens statement, ∀ command, Keyword.ofWord? token ≠ some (.command command)) :
    session.OpensOnly admitted statement := by
  have absent (deed : Deed) : deed ∉ session.deeds statement := by
    intro among
    obtain ⟨⟨token, inside, found⟩, -⟩ := known_of_mem among
    exact idle token inside deed.command found
  exact opensOnly_of_deeds (fun deed among => absurd among (absent deed))
    fun deed among => absurd among (absent deed)

theorem deeds_reopen {deed : Deed} (among : deed ∈ session.deeds Command.reopen.name) :
    deed = ⟨.reopen, session.enter Command.reopen.name⟩ := by
  have alone : tokens Command.reopen.name = [Command.reopen.name] := by decide +kernel
  rw [deeds, recordedDeeds, alone] at among
  rcases mem_deedsAlong among with here | ⟨_, -, later⟩
  · obtain ⟨same, found, -⟩ := deed?_eq_some here
    rw [Command.ofWord?_name] at found
    obtain ⟨_, _⟩ := deed
    cases found
    cases same
    rfl
  · cases later

theorem opensOnly_reopen {path : String} {archive : Archive} (named : session.filename = some path)
    (opens : session.engine.openArchive session.world.files path = .ok archive)
    (admits : admitted archive) : session.OpensOnly admitted Command.reopen.name := by
  apply opensOnly_of_deeds
  · intro deed among
    rw [deeds_reopen among]
    show Command.reopen ∉ [.load, .compile, .undo]
    decide
  · intro deed among other opened
    rw [deeds_reopen among] at opened
    obtain ⟨-, path', named', opens'⟩ := opened
    have found : some path = some path' := named.symm.trans named'
    cases found
    have same : Except.ok archive = Except.ok other := opens.symm.trans opens'
    cases same
    exact admits

/-! ## Naming a file and opening it -/

theorem on_obeyToken_appearance {run : Command → List String → Action Unit} {scope : Scope}
    {parameter : Parameter} {setting : Setting} {rest : List String}
    (unstopped : session.world.watch.stopped = false)
    (reads : parameter.setting session.placing ((taken rest).map argument) = .ok setting)
    (records : (scope.recording && parameter.isAppearance) = true) :
    (obeyToken run scope parameter.name rest).on session =
      (.ok (), (setting.apply session).remembering parameter.name (taken rest)) := by
  have obeyed : (parameter.obey ((taken rest).map argument)).on session =
      (.ok (), setting.apply session) := by
    rw [Parameter.on_obey, reads]
  rw [obeyToken_parameter_eq, on_bind_of_ok (on_checkpoint_of_unstopped unstopped scope),
    obeyParameter, on_bind_of_ok obeyed, if_pos records]
  rfl

/-- A statement that names a file and does no more. -/
def namingStatement : String := "filename [a]"

theorem tokens_namingStatement : tokens namingStatement = [Parameter.filename.name, "[a]"] := by
  decide +kernel

theorem opensOnly_namingStatement : session.OpensOnly admitted namingStatement := by
  apply opensOnly_of_commandless
  intro token among command found
  rw [tokens_namingStatement, List.mem_cons, List.mem_singleton] at among
  rcases among with rfl | rfl
  · rw [Parameter.ofWord?_name] at found
    cases found
  · have unknown : Keyword.ofWord? "[a]" = none := by decide +kernel
    rw [unknown] at found
    cases found

/-- The session that has named a file. -/
def named (session : Session) : Session :=
  { session.enter namingStatement with filename := some "a" }.remembering
    Parameter.filename.name ["[a]"]

theorem running_namingStatement (unstopped : session.world.watch.stopped = false) :
    session.running namingStatement = (.ok (), session.named) := by
  have fragment : isFragment "[a]" = true := by decide +kernel
  have takes : taken ["[a]"] = ["[a]"] := by decide +kernel
  have names : ["[a]"].map argument = ["a"] := by decide +kernel
  have entered : (session.enter namingStatement).world.watch.stopped = false := unstopped
  have reads : Parameter.filename.setting (session.enter namingStatement).placing
      ((taken ["[a]"]).map argument) = .ok (.filename "a") := by
    rw [takes, names]
    rfl
  rw [running, runRecorded, tokens_namingStatement, dispatch,
    on_bind_of_ok (on_obeyToken_appearance entered reads rfl), dispatch,
    on_bind_of_ok (on_obeyToken_fragment fragment), takes]
  rfl

/-- An archive that can be opened is opened in some session that is attained. -/
theorem exists_attained_open {settings : Settings} {engine : Engine} {files : FileTree}
    {archive : Archive} (opens : engine.openArchive files "a" = .ok archive)
    (admits : admitted archive) :
    ∃ session, Attained admitted (ofSettings settings engine (.quiet files .absent)) session ∧
      session.model = some archive.ledger ∧
      session.color = archive.color.getD settings.resetColor := by
  let start := (ofSettings settings engine (.quiet files .absent)).withAccess .root
  have began : Attained admitted (ofSettings settings engine (.quiet files .absent)) start :=
    .withAccess .root .first
  have unstopped : start.world.watch.stopped = false := rfl
  obtain ⟨-, leaves⟩ := success_of_running (running_namingStatement unstopped)
  have attained := began.executed opensOnly_namingStatement
  rw [leaves] at attained
  have opened := @opened_cases start.named.settle "a" (Nat.le_refl _) rfl rfl
  have opens : start.named.settle.engine.openArchive start.named.settle.world.files "a" =
      .ok archive := opens
  simp only [opens] at opened
  obtain ⟨-, color, model⟩ := opened
  exact ⟨_, attained.executed (opensOnly_reopen rfl opens admits), model, color⟩

end Session

end PaperFolding
