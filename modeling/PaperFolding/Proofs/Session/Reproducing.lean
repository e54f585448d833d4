import PaperFolding.Proofs.Session.Arriving
import PaperFolding.Proofs.Session.Recording
import PaperFolding.Proofs.Session.Renewal
import PaperFolding.Proofs.Session.Uninterrupted

/-!
Executing the entry that a statement leaves when it starts the history anew. In a fresh session it leads to
paper that looks the same, unless one of the words it was to keep is missing from it.
-/

namespace PaperFolding

open Script

namespace Session

/-- The session without its paper, and with nothing staged. -/
def emptied (session : Session) : Session := { session with model := none, stage := .empty }

end Session

namespace Deed

open Session

/-- Loading comes to the same without the paper that is there and without what is staged. -/
def LoadsAnew (deed : Deed) : Prop :=
  ∀ rest, Meets (Matching (.ofPaper true))
    ((load (.ofDepth deed.session.nestingBound) statementScope rest).on deed.session)
    ((load (.ofDepth deed.session.nestingBound) statementScope rest).on deed.session.emptied)

/-- What is known of a deed that starts the history anew if it can be done again from the start. Its entry
says all that the command looks at; of what has been noted, only names of files are found in the
construction, which are missing from the entry for that. -/
structure Reproducible (start : Session) (deed : Deed) : Prop where
  access : deed.session.access = start.access
  files : deed.session.world.files = start.world.files
  replies : deed.session.world.operator.replies = start.world.operator.replies
  named : misnamesFile (deed.session.draft.lead.flatMap tokens) = false
  apart : deed.command ≠ .new → ∀ entry ∈ deed.session.draft.lead,
    Text.contains entry.toList deed.construction.toList = true →
      (tokens entry).head? = some Parameter.filename.name
  printable : deed.command = .new → deed.session.stage.Printable
  nameable : deed.command ≠ .new → ∀ path ∈ deed.session.filename, Nameable path
  unstaged : deed.command = .reopen → deed.session.stage = .empty
  anew : deed.command = .load → deed.LoadsAnew

/-- The other session shows its paper in the same way, and has staged the same if the deed makes paper. -/
structure Staged (deed : Deed) (staged : Session) : Prop where
  matching : Matching (.blindfold true) deed.session staged
  sheet : deed.command = .new → deed.session.stage.SameSheet staged.stage
  bare : deed.command ≠ .new → staged.stage = .empty ∧ staged.model = none

end Deed

theorem Keyword.plain_names : ∀ word ∈ Keyword.names, Plain word.toList ∧ word.toList ≠ [] := by
  decide +kernel

theorem Stage.sameSheet_rebuilt (stage : Stage) : stage.SameSheet stage.rebuilt := by
  unfold rebuilt
  cases found : stage.preset with
  | some preset => exact ⟨found, fun none => absurd (found.symm.trans none) (Option.some_ne_none _)⟩
  | none => exact ⟨found, fun _ => rfl⟩

namespace Session

variable {first second start session after : Session} {rest : List String} {deed : Deed}
  {leads : List Lead} {depth : Nat} {scope : Scope} {takeBack : List String → Action Unit}

/-! ## In front of the command -/

/-- Once a fresh session is dressed like the one that the deed finds, the two look the same. -/
theorem matching_dressed (reproducible : deed.Reproducible start) (blank : Paperless start)
    (plain : start.engine = .plain) {row : List String}
    (noting : Noting start deed.command row deed.session)
    (look : SameLook False deed.session (dressed leads start)) (entry : String) (stage : Stage)
    {filename : Option String} (named : deed.session.filename = filename) (draft : Draft) :
    Matching (.blindfold true) deed.session
      { dressed leads (start.enter entry) with stage, filename, draft } := by
  have beside := beside_dressed leads (start.enter entry)
  have surroundings : (dressed leads (start.enter entry)).surroundings = start.surroundings :=
    dressed_surroundings leads (start.enter entry)
  have settings := dressed_settings leads (start.enter entry)
  have looks := look.trans (dressed_enter leads entry start)
  exact
    { resembles :=
        { plain := noting.resembles.plain
          plain' := beside.engine.trans plain
          unwatched := noting.resembles.unwatched
          unwatched' :=
            ⟨(congrArg Watch.active beside.watch).trans blank.ordinary.unwatched,
              (congrArg Watch.stopped beside.watch).trans blank.ordinary.unstopped⟩
          settings := noting.settings.trans settings.symm
          access := reproducible.access.trans (congrArg Surroundings.access surroundings).symm
          files := reproducible.files.trans (congrArg Surroundings.files surroundings).symm
          replies := reproducible.replies.trans (congrArg Surroundings.replies surroundings).symm
          filename := named
          color := fun _ => looks.color
          model := nofun
          stage := nofun
          camera := nofun
          texture := nofun
          locale := nofun
          transcript := nofun
          history := nofun
          draft := nofun }
      camera := looks.camera
      locale := looks.locale }

theorem standalone_fileConstruction {path : String} (nameable : Nameable path) (command : Command) :
    Standalone (fileConstruction command path)
      [Parameter.filename.name, fileToken path, command.name] := by
  have known := Keyword.mem_names (isKnown_name (.command command))
  obtain ⟨plain, inhabited⟩ := Keyword.plain_names command.name known
  exact nameable.standalone plain inhabited

/-- Naming a file in front of a command. -/
theorem on_dispatch_file (run : Command → List String → Action Unit) (scope : Scope)
    (ordinary : Ordinary session) {path : String} (nameable : Nameable path) (command : Command)
    (rest : List String) :
    ∃ draft, (dispatch run scope
        (Parameter.filename.name :: fileToken path :: command.name :: rest)).on session =
      (dispatch run scope (command.name :: rest)).on
        { session with filename := some path, draft } := by
  have unknown : ∀ word ∈ [fileToken path], isKnown word = false := by
    intro word among
    rw [List.mem_singleton.1 among]
    exact isKnown_of_fragment (isFragment_fileToken path)
  have inhabited : path.isEmpty = false := by
    rw [Bool.eq_false_iff, ne_eq, String.isEmpty_iff]
    exact nameable.inhabited
  have reads : Parameter.filename.setting session.placing ([fileToken path].map argument) =
      .ok (.filename path) := by
    rw [List.map_singleton, nameable.argument_fileToken, Parameter.setting, inhabited,
      if_neg Bool.false_ne_true]
    rfl
  obtain ⟨draft, -, runs⟩ :=
    on_dispatch_parameter run scope ordinary unknown
      (taken_known (isKnown_name (.command command)) rest) reads
  exact ⟨draft, runs⟩

theorem rereadable_leads (named : misnamesFile ((leads.map Lead.entry).flatMap tokens) = false) :
    ∀ lead ∈ leads, lead.Rereadable := by
  have rows : (leads.map Lead.entry).flatMap tokens = leads.flatMap Lead.row := by
    rw [List.flatMap_map]
    exact congrArg (leads.flatMap ·) (funext Lead.tokens_entry)
  have inFront : misnamesFile ([] ++ (leads.flatMap Lead.row ++ [])) = false := by
    rwa [List.append_nil, List.nil_append, ← rows]
  exact rereadable_of_named inFront

/-- If only names of files are found in the construction, only these are missing in front of it. -/
theorem sameLook_staying {construction : String}
    (apart : ∀ entry ∈ leads.map Lead.entry,
      Text.contains entry.toList construction.toList = true →
        (tokens entry).head? = some Parameter.filename.name) (session : Session) :
    SameLook False (dressed leads session) (dressed (staying leads construction) session) := by
  refine sameLook_filter (fun lead among gone => ?_) session
  have names := apart lead.entry (List.mem_map_of_mem among) (by simpa using gone)
  rw [lead.tokens_entry] at names
  have same : Keyword.ofWord? lead.parameter.name = Keyword.ofWord? Parameter.filename.name :=
    congrArg Keyword.ofWord? (Option.some.inj names)
  rw [Parameter.ofWord?_name, Parameter.ofWord?_name] at same
  exact Keyword.parameter.inj (Option.some.inj same)

section Entered

variable {entry : String} (run : Command → List String → Action Unit) (scope : Scope)

/-- The entry of a deed that makes paper leads to where the same sheet is staged. -/
theorem exists_staged_new (reproducible : deed.Reproducible start) (blank : Paperless start)
    (plain : start.engine = .plain) (makes : deed.command = .new)
    (noting : Noting start deed.command (deed.command.name :: rest) deed.session) :
    ∃ staged, deed.Staged staged ∧
      (dispatch run scope (tokens (rebasedEntry deed.session.draft.lead deed.construction rest))).on
          (start.enter entry) =
        (dispatch run scope (deed.command.name :: rest)).on staged := by
  obtain ⟨leads, led, look⟩ := noting.leads (List.mem_cons_self ..)
  have constructs := deed.session.stage.constructs
  have construction : deed.construction = deed.session.stage.construction := by
    rw [Deed.construction, makes]
  have rereadable : ∀ lead ∈ leads, lead.Rereadable :=
    rereadable_leads (by rw [← led]; exact reproducible.named)
  have entered : Blank (start.enter entry) := ⟨blank.ordinary.enter entry, blank.stage⟩
  obtain ⟨draft, -, runs⟩ :=
    on_dispatch_prelude run scope entered rereadable (reproducible.printable makes) rest
  have named : deed.session.filename = (dressed leads (start.enter entry)).filename :=
    (look.trans (dressed_enter leads entry start)).filename trivial
  refine ⟨{ dressed leads (start.enter entry) with stage := deed.session.stage.rebuilt, draft },
    ⟨matching_dressed reproducible blank plain noting look.unnamed entry _ named draft,
      fun _ => deed.session.stage.sameSheet_rebuilt, fun other => absurd makes other⟩, ?_⟩
  rw [led, construction, tokens_rebasedEntry leads constructs.toStandalone noting.rows.tail,
    staying_eq leads constructs, makes, ← runs]
  simp only [List.append_assoc, List.singleton_append]

/-- The entry of a deed that takes its paper from a file leads to where the same file is named. -/
theorem exists_staged_file (reproducible : deed.Reproducible start) (blank : Paperless start)
    (plain : start.engine = .plain) (other : deed.command ≠ .new) {path : String}
    (named : deed.session.filename = some path)
    (noting : Noting start deed.command (deed.command.name :: rest) deed.session) :
    ∃ staged, deed.Staged staged ∧
      (dispatch run scope (tokens (rebasedEntry deed.session.draft.lead deed.construction rest))).on
          (start.enter entry) =
        (dispatch run scope (deed.command.name :: rest)).on staged := by
  obtain ⟨leads, led, look⟩ := noting.leads (List.mem_cons_self ..)
  have nameable := reproducible.nameable other path named
  have construction : deed.construction = fileConstruction deed.command path := by
    rw [Deed.construction]
    split
    · rename_i makes
      exact absurd makes other
    · rw [named, Option.getD_some]
  have standalone := standalone_fileConstruction nameable deed.command
  have apart := reproducible.apart other
  have unnamed := reproducible.named
  rw [led, construction] at apart
  rw [led] at unnamed
  let kept := staying leads (fileConstruction deed.command path)
  have rereadable : ∀ lead ∈ kept, lead.Rereadable :=
    fun lead among => rereadable_leads unnamed lead (List.mem_filter.1 among).1
  have look : SameLook False deed.session (dressed kept start) :=
    look.unnamed.trans (sameLook_staying apart start)
  have entered : Ordinary (start.enter entry) := blank.ordinary.enter entry
  have known : taken (Parameter.filename.name :: fileToken path :: deed.command.name :: rest) = [] :=
    taken_known (isKnown_name (.parameter .filename)) _
  obtain ⟨draft, -, runs⟩ := on_dispatch_leads run scope entered rereadable known
  have led' : Ordinary { dressed kept (start.enter entry) with draft } :=
    (entered.beside (beside_dressed kept (start.enter entry))).same rfl rfl
  obtain ⟨draft', runs'⟩ := on_dispatch_file run scope led' nameable deed.command rest
  refine ⟨{ dressed kept (start.enter entry) with filename := some path, draft := draft' },
    ⟨matching_dressed reproducible blank plain noting look entry _ named draft',
      fun makes => absurd makes other, fun _ => ⟨?_, ?_⟩⟩, ?_⟩
  · exact (dressed_stage kept (start.enter entry)).trans blank.stage
  · exact (beside_dressed kept (start.enter entry)).model.trans blank.model
  · rw [led, construction,
      tokens_rebasedEntry leads standalone noting.rows.tail, List.append_assoc]
    exact runs.trans runs'

end Entered

/-! ## The command and what follows -/

theorem Matching.emptied (matching : Matching (.blindfold true) first second)
    (stage : second.stage = .empty) (model : second.model = none) :
    Matching (.ofPaper true) first.emptied second where
  resembles := { matching.resembles with
    model := fun _ => model.symm
    stage := fun _ => stage.symm }
  camera := matching.camera
  locale := matching.locale

/-- What cannot undo does the same in sessions that match. -/
theorem attuned_forward {command : Command} (forward : command ≠ .undo) (rest : List String) :
    Attuned (.ofPaper true) (obey (.ofDepth depth) scope takeBack command rest) :=
  attuned_obey (attunedScripts_ofDepth depth) rfl rfl (fun undoes => absurd undoes forward) rest

theorem Resembles.matching_emptied (resembles : Resembles .everything session session) :
    Matching (.blindfold true) session session.emptied where
  resembles :=
    { (Resembles.refl resembles.plain resembles.unwatched :
        Resembles (.blindfold true) session session) with
      model := nofun
      stage := nofun }
  camera := rfl
  locale := rfl

/-- A script that lays out a sheet and makes paper of it goes on alike, whatever paper was there. -/
theorem Matching.laying (matching : Matching (.blindfold true) first second) (depth : Nat)
    (cancellable : Bool) {words : List String} {setting : Setting}
    (unknown : ∀ word ∈ words, isKnown word = false)
    (reads : ∀ placing, Parameter.paper.setting placing (words.map argument) = .ok setting)
    (others : List String) :
    Meets (Matching (.ofPaper true))
      ((runBody (.ofDepth depth) cancellable
        (Parameter.paper.name :: (words ++ Command.new.name :: others))).on first)
      ((runBody (.ofDepth depth) cancellable
        (Parameter.paper.name :: (words ++ Command.new.name :: others))).on second) := by
  obtain ⟨ordinary, ordinary'⟩ := matching.resembles.ordinary
  have known : taken (Command.new.name :: others) = [] :=
    taken_known (isKnown_name (.command .new)) others
  have lays {session : Session} (ordinary : Ordinary session) :=
    on_dispatch_parameter
      (obey (.ofDepth depth) ⟨false, cancellable⟩ fun _ => throw (.missing .undoableFold))
      ⟨false, cancellable⟩ ordinary unknown known (reads session.placing)
  obtain ⟨draft, -, runs⟩ := lays ordinary
  obtain ⟨draft', -, runs'⟩ := lays ordinary'
  rw [runBody, runs, runs']
  have laid := matching.apply setting
  have drafted : Matching (.blindfold true) { setting.apply first with draft }
      { setting.apply second with draft := draft' } :=
    ⟨{ laid.resembles with draft := fun seen => absurd seen Bool.false_ne_true }, laid.camera,
      laid.locale⟩
  have sheet : (setting.apply first).stage.SameSheet (setting.apply second).stage := by
    rw [Setting.stage_apply, Setting.stage_apply]
    have lays : Parameter.paper.lays = true := rfl
    exact Parameter.sameSheet_of_lays lays (Parameter.gives_of_setting (reads first.placing)) _ _
  refine Meets.bind (.obeyToken .applying drafted.resembles (Nat.zero_le _) rfl
    (drafted.makePaper sheet _ others)) fun _ _ _ matching => ?_
  exact attuned_dispatch rfl rfl (fun _ _ command _ rest =>
    attuned_obey (attunedScripts_ofDepth depth) rfl rfl (fun _ _ => ⟨.throw _, .throw _⟩) rest)
    _ _ matching

/-- What such a script leaves does not depend on the paper that is there, nor on what is staged. -/
theorem loadsAnew_of_laying (resembles : Resembles .everything deed.session deed.session)
    {path source : String} (named : deed.session.filename = some path)
    (read : deed.session.world.files.readText path = .ok source) {words others : List String}
    {setting : Setting}
    (row : tokens source = Parameter.paper.name :: (words ++ Command.new.name :: others))
    (unknown : ∀ word ∈ words, isKnown word = false)
    (reads : ∀ placing, Parameter.paper.setting placing (words.map argument) = .ok setting) :
    deed.LoadsAnew := by
  intro rest
  have matching := resembles.matching_emptied
  have loads : Meets (Matching (.ofPaper true))
      (((Nested.ofDepth deed.session.nestingBound).load true source).on deed.session)
      (((Nested.ofDepth deed.session.nestingBound).load true source).on deed.session.emptied) := by
    cases deed.session.nestingBound with
    | zero => exact ⟨rfl, nofun⟩
    | succ depth =>
        have meets :=
          (matching.withAccess (Eq.refl Level.user)).laying depth true unknown reads others
        rw [← row] at meets
        rw [Nested.load_ofDepth, on_atLevel, on_atLevel]
        exact ⟨meets.outcome, fun value done => (meets.related value done).withAccess rfl⟩
  have named' : deed.session.emptied.filename = some path := named
  rw [load, on_bind_of_ok (on_scriptFile_of_read named read),
    on_bind_of_ok (on_scriptFile_of_read named' read)]
  refine loads.bind fun _ _ _ matching => ?_
  have ends : Attuned (.ofPaper true)
      (rebase statementScope ("filename [" ++ path ++ "] load") rest >>= fun _ => clearStage) :=
    .bind (.of_blind (.rebase _ _ rest) (Still.rebase _ _ rest).outlook) fun _ =>
      .of_blind .clearStage Still.clearStage.outlook
  exact ends _ _ matching

/-- The command itself does the same where its deed was staged. -/
theorem meets_staged (reproducible : deed.Reproducible start) (renews : deed.command ∈ rewriters)
    (permitted : deed.command.access ≤ deed.session.access) {staged : Session}
    (again : deed.Staged staged) (takeBack : List String → Action Unit) (rest : List String) :
    Meets (Matching (.ofPaper true))
      ((obeyToken (obey (.ofDepth deed.session.nestingBound) statementScope takeBack) statementScope
        deed.command.name rest).on deed.session)
      ((obeyToken (obey (.ofDepth deed.session.nestingBound) statementScope takeBack) statementScope
        deed.command.name rest).on staged) := by
  obtain ⟨command, session⟩ := deed
  obtain ⟨matching, sheet, bare⟩ := again
  simp only [rewriters, List.mem_cons, List.not_mem_nil, or_false] at renews
  have others : Command.load ≠ .new ∧ Command.reopen ≠ .new := by decide
  rcases renews with rfl | rfl | rfl
  · exact .obeyToken .applying matching.resembles permitted rfl (matching.makePaper (sheet rfl) _ rest)
  · obtain ⟨stage, model⟩ := bare others.1
    refine .obeyToken .applying matching.resembles permitted rfl
      (Matching.trans_meets (reproducible.anew rfl rest) ?_)
    have attuned : Attuned (.ofPaper true)
        (obey (.ofDepth session.nestingBound) statementScope takeBack .load rest) :=
      attuned_forward (by decide) rest
    exact attuned _ _ (matching.emptied stage model)
  · obtain ⟨stage, -⟩ := bare others.2
    have staged := (reproducible.unstaged rfl).trans stage.symm
    exact .obeyToken .applying matching.resembles permitted rfl (matching.reopen staged _ rest)

/-! ## Whole statements -/

/-- A statement without an undo that has come to a deed which starts the history anew, and to none of the kind
behind it, has left the entry of that deed. -/
theorem history_of_last {reached : Session} (ordinary : Ordinary deed.session)
    (renews : deed.command ∈ rewriters) (forward : Command.undo.name ∉ rest)
    (obeyed : (obeyToken (obey (.ofDepth depth) statementScope takeBack) statementScope
      deed.command.name rest).on deed.session = (.ok (), reached))
    (done : (dispatch (obey (.ofDepth depth) statementScope takeBack) statementScope rest).on reached =
      (.ok (), after))
    (last : ∀ other ∈ deedsAlong (obey (.ofDepth depth) statementScope takeBack) statementScope rest
      reached, other.command ∉ rewriters) :
    after.history = [rebasedEntry deed.session.draft.lead deed.construction rest] := by
  have additive : ∀ other ∈ deedsAlong (obey (.ofDepth depth) statementScope takeBack) statementScope
      rest reached, other.Additive := by
    intro other among
    refine ⟨last other among, fun startsOver => ?_⟩
    obtain ⟨⟨token, inside, found⟩, -⟩ := known_of_mem among
    obtain rfl : other.command.name = token := Keyword.name_of_ofWord? found
    rw [startsOver.1] at inside
    exact forward inside
  have unwritten := unwritten_of_dispatch additive done
  obtain ⟨ran, runs, ends⟩ := obeyToken_command obeyed
  obtain ⟨beside, -, -⟩ := beside_applied ends
  rw [unwritten.history, beside.history]
  exact history_of_renewal ordinary rfl renews runs

theorem exists_path_of_renewal {reached : Session} (renews : deed.command ∈ rewriters)
    (other : deed.command ≠ .new)
    (obeyed : (obeyToken (obey (.ofDepth depth) scope takeBack) scope deed.command.name rest).on
      deed.session = (.ok (), reached)) : ∃ path, deed.session.filename = some path := by
  obtain ⟨command, session⟩ := deed
  obtain ⟨ran, runs, -⟩ := obeyToken_command obeyed
  simp only [rewriters, List.mem_cons, List.not_mem_nil, or_false] at renews
  rcases renews with rfl | rfl | rfl
  · exact absurd rfl other
  · obtain ⟨path, -, named, -⟩ := load_of_ok runs
    exact ⟨path, named⟩
  · obtain ⟨path, -, named, -⟩ := reopen_of_ok runs
    exact ⟨path, named⟩

/-- The entry comes to where its command is to be obeyed. -/
theorem exists_staged (reproducible : deed.Reproducible start) (blank : Paperless start)
    (plain : start.engine = .plain) (renews : deed.command ∈ rewriters) {reached : Session}
    (noting : Noting start deed.command (deed.command.name :: rest) deed.session)
    (obeyed : (obeyToken (obey (.ofDepth depth) scope takeBack) scope deed.command.name rest).on
      deed.session = (.ok (), reached)) :
    ∃ staged, deed.Staged staged ∧
      start.running (rebasedEntry deed.session.draft.lead deed.construction rest) =
        (dispatch start.obeying statementScope (deed.command.name :: rest)).on staged := by
  have entering (entry : String) : start.running entry =
      (dispatch start.obeying statementScope (tokens entry)).on (start.enter entry) := rfl
  rw [entering]
  by_cases makes : deed.command = .new
  · exact exists_staged_new _ _ reproducible blank plain makes noting
  · obtain ⟨path, named⟩ := exists_path_of_renewal renews makes obeyed
    exact exists_staged_file _ _ reproducible blank plain makes named noting

/-- From the deed on, the statement and its entry go the same way. -/
theorem meets_dispatch (reproducible : deed.Reproducible start) (renews : deed.command ∈ rewriters)
    (permitted : deed.command.access ≤ deed.session.access) (forward : Command.undo.name ∉ rest)
    {staged : Session} (again : deed.Staged staged) (takeBack : List String → Action Unit) :
    Meets (Matching (.ofPaper true))
      ((dispatch (obey (.ofDepth deed.session.nestingBound) statementScope takeBack) statementScope
        (deed.command.name :: rest)).on deed.session)
      ((dispatch (obey (.ofDepth deed.session.nestingBound) statementScope takeBack) statementScope
        (deed.command.name :: rest)).on staged) := by
  apply (meets_staged reproducible renews permitted again takeBack rest).bind
  intro _ reached reached' matching
  refine attuned_dispatch rfl rfl (fun word among command found others => ?_) _ _ matching
  refine attuned_forward ?_ others
  rintro rfl
  obtain rfl : Command.undo.name = word := Keyword.name_of_ofWord? found
  exact forward among

section Statements

variable {settings : Settings} {files : FileTree} {operator : Operator} {statement : String}
  {earlier later : List Deed}

/-- Executing the entry leads to a session that matches. -/
theorem matching_of_entry (blank : Paperless start) (plain : start.engine = .plain)
    (unmarked : spaceMark ∉ statement.toList) (done : start.failure statement = none)
    (forward : Command.undo.name ∉ tokens statement)
    (split : start.deeds statement = earlier ++ deed :: later)
    (renews : deed.command ∈ rewriters) (last : ∀ other ∈ later, other.command ∉ rewriters)
    (first : ∀ other ∈ earlier, other.KeepsLook) (reproducible : deed.Reproducible start) :
    ∃ entry, (start.executed statement).history = [entry] ∧ start.failure entry = none ∧
      Matching (.ofPaper true) (start.executed statement) (start.executed entry) := by
  obtain ⟨after, runs, settled⟩ := running_of_success done
  have among : deed ∈ start.deeds statement := by
    rw [split]
    exact List.mem_append_right _ (List.mem_cons_self ..)
  have permitted := access_of_permit (known_of_mem among).2
  have takesBack (rest : List String) : Blind .everything
      (replayUndo (.ofDepth start.nestingBound) true 1 rest) :=
    blind_replayUndo (blindScripts_ofDepth _) true 1 rest
  have resembles : Resembles .everything start start :=
    .refl plain ⟨blank.ordinary.unwatched, blank.ordinary.unstopped⟩
  -- What has been noted up to the deed is what its entry begins with.
  have along : deedsAlong start.obeying statementScope (tokens statement) (start.enter statement) =
      earlier ++ deed :: later := split
  obtain ⟨rest, reached, noting, obeyed, others, rfl⟩ :=
    arrives (Noting start deed.command) Deed.KeepsLook
      (fun noting keeps done => noting.step rfl takesBack keeps done)
      (.enter resembles unmarked forward) first along runs
  have forward : Command.undo.name ∉ rest := fun later => noting.forward (List.mem_cons_of_mem _ later)
  have history := history_of_last noting.resembles.ordinary.1 renews forward obeyed others last
  have bound : deed.session.nestingBound = start.nestingBound := by
    rw [nestingBound, nestingBound, Operator.grants, Operator.grants, reproducible.replies]
  obtain ⟨staged, again, runs'⟩ := exists_staged reproducible blank plain renews noting obeyed
  have meets : Meets (Matching (.ofPaper true))
      ((dispatch start.obeying statementScope (deed.command.name :: rest)).on deed.session)
      ((dispatch start.obeying statementScope (deed.command.name :: rest)).on staged) := by
    rw [obeying, ← bound]
    exact meets_dispatch reproducible renews permitted forward again _
  have ran : (dispatch start.obeying statementScope (deed.command.name :: rest)).on deed.session =
      (.ok (), after) := by
    rw [dispatch]
    exact (on_bind_of_ok obeyed).trans others
  rw [ran] at meets
  obtain ⟨after', ran', matching⟩ := meets.ok
  obtain ⟨done', settled'⟩ := success_of_running (runs'.trans ran')
  refine ⟨_, ?_, done', ?_⟩
  · rw [settled, settle_history, history]
  · rw [settled, settled']
    exact matching.settle

/-- The one entry that a statement leaves which starts the history anew gives the paper the same look again,
if the last deed of the kind can be done again, and the deeds before it neither load nor open anything. -/
theorem entry_keeps_look (unmarked : spaceMark ∉ statement.toList)
    (done : (rooted settings files operator).failure statement = none)
    (forward : Command.undo.name ∉ tokens statement)
    (split : (rooted settings files operator).deeds statement = earlier ++ deed :: later)
    (renews : deed.command ∈ rewriters) (last : ∀ other ∈ later, other.command ∉ rewriters)
    (first : ∀ other ∈ earlier, other.KeepsLook)
    (reproducible : deed.Reproducible (rooted settings files operator)) :
    ∃ entry, ((rooted settings files operator).executed statement).history = [entry] ∧
      (rooted settings files operator).failure entry = none ∧
      ((rooted settings files operator).executed entry).color =
        ((rooted settings files operator).executed statement).color ∧
      ((rooted settings files operator).executed entry).locale =
        ((rooted settings files operator).executed statement).locale ∧
      ((rooted settings files operator).executed entry).filename =
        ((rooted settings files operator).executed statement).filename ∧
      ((rooted settings files operator).executed entry).camera =
        ((rooted settings files operator).executed statement).camera := by
  have blank : Paperless (rooted settings files operator) :=
    ⟨⟨⟨Engine.plain_foldsPlainly, rfl, rfl⟩, rfl⟩, rfl⟩
  obtain ⟨entry, history, done', matching⟩ :=
    matching_of_entry blank rfl unmarked done forward split renews last first reproducible
  exact ⟨entry, history, done', (matching.resembles.color rfl).symm, matching.locale.symm,
    matching.resembles.filename.symm, matching.camera.symm⟩

/-- A session that may load a script which makes its paper in a color of its own. -/
def tinting : Session :=
  rooted .standard ⟨[], [(["s"], .file "paper [square] new color [2]".toUTF8)], .willing⟩ .absent

/-- There is paper, and an angle is staged, when the script is loaded. -/
def dressing : String :=
  "filename [s] color [1] paper [a4] new camera [0 0 1] [0 1 0] [1 0 0] angle [90] load " ++
    "uncolor locale [en US]"

def redressing : String :=
  "color [1] camera [0 0 1] [0 1 0] [1 0 0] filename [s] load uncolor locale [en US]"

theorem reproducible_dressing {deed : Deed} {earlier : List Deed}
    (alone : tinting.deeds dressing = earlier ++ [deed]) (loads : deed.command = .load)
    (surroundings : deed.session.surroundings = tinting.surroundings)
    (resembles : Resembles .everything deed.session deed.session) : deed.Reproducible tinting := by
  have known : ∀ deed ∈ (tinting.deeds dressing).getLast?, deed.session.filename = some "s" ∧
      misnamesFile (deed.session.draft.lead.flatMap tokens) = false ∧
        ∀ entry ∈ deed.session.draft.lead,
          Text.contains entry.toList deed.construction.toList = true →
            (tokens entry).head? = some Parameter.filename.name := by
    decide +kernel
  obtain ⟨filename, named, apart⟩ := known deed (by rw [alone, List.getLast?_concat]; rfl)
  have other {command : Command} (differs : command ≠ .load) : deed.command ≠ command := by
    rw [loads]
    exact differs.symm
  have files : deed.session.world.files = tinting.world.files :=
    congrArg Surroundings.files surroundings
  exact
    { access := congrArg Surroundings.access surroundings
      files
      replies := congrArg Surroundings.replies surroundings
      named
      apart := fun _ => apart
      printable := fun makes => absurd makes (other (by decide))
      nameable := fun _ path among => by
        rw [filename] at among
        cases among
        decide +kernel
      unstaged := fun opens => absurd opens (other (by decide))
      anew := fun _ => by
        have read : tinting.world.files.readText "s" = .ok "paper [square] new color [2]" := by
          decide +kernel
        have row : tokens "paper [square] new color [2]" =
            Parameter.paper.name :: (["[square]"] ++ Command.new.name :: ["color", "[2]"]) := by
          decide +kernel
        have reads (placing : Placing) :
            Parameter.paper.setting placing (["[square]"].map argument) = .ok (.preset .square) := rfl
        exact loadsAnew_of_laying resembles filename (files ▸ read) row (by decide +kernel) reads }

theorem entry_keeps_look_dressing :
    tinting.failure dressing = none ∧
      (tinting.executed dressing).history = [redressing] ∧ tinting.failure redressing = none ∧
      (tinting.executed redressing).color = (tinting.executed dressing).color ∧
      (tinting.executed redressing).locale = (tinting.executed dressing).locale ∧
      (tinting.executed redressing).filename = (tinting.executed dressing).filename ∧
      (tinting.executed redressing).camera = (tinting.executed dressing).camera := by
  have done : tinting.failure dressing = none := by decide +kernel
  have history : (tinting.executed dressing).history = [redressing] := by decide +kernel
  have commands : (tinting.deeds dressing).map Deed.command = [.new, .load] := by decide +kernel
  obtain ⟨made, loading, split, makes, commands⟩ := List.map_eq_cons_iff.1 commands
  obtain ⟨deed, others, rfl, loads, commands⟩ := List.map_eq_cons_iff.1 commands
  obtain rfl := List.map_eq_nil_iff.1 commands
  have split : tinting.deeds dressing = [made] ++ deed :: [] := split
  have first {holds : Deed → Prop} (once : holds made) : ∀ other ∈ [made], holds other := by
    rwa [List.forall_mem_singleton]
  have resembles : Resembles .everything tinting tinting := .refl rfl ⟨rfl, rfl⟩
  have among : deed ∈ tinting.deeds dressing := by
    rw [split]
    exact List.mem_append_right _ (List.mem_cons_self ..)
  have reproducible : deed.Reproducible tinting :=
    reproducible_dressing split loads
      (surroundings_of_deed done split (first (by rw [makes]; nofun)))
      (resembles_of_deed resembles among)
  obtain ⟨entry, left, rest⟩ :=
    entry_keeps_look (by decide +kernel) done (by decide +kernel) split (by rw [loads]; decide)
      (fun _ none => absurd none List.not_mem_nil)
      (first ⟨by rw [makes]; decide, by rw [makes]; decide⟩) reproducible
  obtain rfl : entry = redressing := List.singleton_inj.1 (left.symm.trans history)
  exact ⟨done, left, rest⟩

/-- A session that may load a script with a name in which a word of the appearance is found. -/
def misleading : Session :=
  rooted .standard ⟨[], [(["uncolor"], .file "paper [square] new".toUTF8)], .willing⟩ .absent

/-- The word goes missing from the entry, as it is found in the name of the file. -/
theorem entry_loses_color :
    misleading.failure "uncolor filename [uncolor] load" = none ∧
      (misleading.executed "uncolor filename [uncolor] load").history = ["filename [uncolor] load"] ∧
      misleading.failure "filename [uncolor] load" = none ∧
      (misleading.executed "filename [uncolor] load").color ≠
        (misleading.executed "uncolor filename [uncolor] load").color := by
  decide +kernel

end Statements

end Session

end PaperFolding
