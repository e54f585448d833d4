import PaperFolding.Proofs.Session.Entry
import PaperFolding.Proofs.Session.Likeness

/-!
Obeying the entry of a rewritten history in a session without paper: the words in front change the
appearance only, and the construction makes the paper that it was printed from.
-/

namespace PaperFolding

open Script

namespace Session

structure Blank (session : Session) : Prop where
  ordinary : Ordinary session
  stage : session.stage = .empty

theorem Blank.withAccess {session : Session} (blank : Blank session) (level : Level) :
    Blank (session.withAccess level) := ⟨blank.ordinary.same rfl rfl, blank.stage⟩

section Dispatching

variable (obey : Command → List String → Action Unit) (scope : Scope)

theorem isKnown_name (keyword : Keyword) : isKnown keyword.name = true := by
  rw [isKnown, Keyword.ofWord?_name]
  rfl

theorem on_permit_of_ready {session : Session} {command : Command}
    (permitted : command.access ≤ session.access)
    (ready : (command.needsPaper && session.model.isNone) = false) :
    (permit command).on session = (.ok (), session) := by
  have high : ¬ session.access < command.access := fun low => Nat.not_le.2 low permitted
  rw [on_permit, objection?, if_neg high, ready, if_neg Bool.false_ne_true]

theorem on_permit_of_user {session : Session} {command : Command} (anybody : command.access = .user)
    (ready : (command.needsPaper && session.model.isNone) = false) :
    (permit command).on session = (.ok (), session) := by
  refine on_permit_of_ready ?_ ready
  rw [anybody]
  exact Nat.zero_le _

theorem on_obeyToken_unknown {session : Session} (ordinary : Ordinary session) {token : String}
    (unknown : isKnown token = false) (rest : List String) :
    (obeyToken obey scope token rest).on session = (.ok (), session) := by
  have none : Keyword.ofWord? token = none := by simpa [isKnown] using unknown
  unfold obeyToken
  split
  · rfl
  · rw [on_bind_of_ok (on_checkpoint_of_ordinary ordinary scope), obeyWord, none]
    rfl

theorem on_dispatch_unknown {session : Session} (ordinary : Ordinary session) {words : List String}
    (unknown : ∀ word ∈ words, isKnown word = false) (rest : List String) :
    (dispatch obey scope (words ++ rest)).on session = (dispatch obey scope rest).on session := by
  induction words with
  | nil => rfl
  | cons word words induction =>
      obtain ⟨here, others⟩ := List.forall_mem_cons.1 unknown
      rw [List.cons_append, dispatch, on_bind_of_ok (on_obeyToken_unknown obey scope ordinary here _),
        induction others]

theorem taken_append {words rest : List String} (unknown : ∀ word ∈ words, isKnown word = false)
    (known : taken rest = []) : taken (words ++ rest) = words := by
  unfold taken at known ⊢
  rw [List.takeWhile_append_of_pos, known, List.append_nil]
  simpa using unknown

/-- A parameter changes what it sets, and what is noted of the statement. -/
theorem on_dispatch_parameter {session : Session} (ordinary : Ordinary session)
    {parameter : Parameter} {words rest : List String} {setting : Setting}
    (unknown : ∀ word ∈ words, isKnown word = false) (known : taken rest = [])
    (reads : parameter.setting session.placing (words.map argument) = .ok setting) :
    ∃ draft, draft.inHistory = session.draft.inHistory ∧
      (dispatch obey scope (parameter.name :: (words ++ rest))).on session =
        (dispatch obey scope rest).on { setting.apply session with draft } := by
  have same := (beside_apply setting session).inHistory
  obtain ⟨draft, inHistory, remembered⟩ : ∃ draft, draft.inHistory = session.draft.inHistory ∧
      (if scope.recording && parameter.isAppearance then remember parameter.name words
        else pure ()).on (setting.apply session) =
          (.ok (), { setting.apply session with draft }) := by
    split
    · exact ⟨((setting.apply session).remembering parameter.name words).draft, same, rfl⟩
    · exact ⟨(setting.apply session).draft, same, rfl⟩
  refine ⟨draft, inHistory, ?_⟩
  have obeyed : (parameter.obey (words.map argument)).on session =
      (.ok (), setting.apply session) := by
    rw [Parameter.on_obey, reads]
  have step : (obeyToken obey scope parameter.name (words ++ rest)).on session =
      (.ok (), { setting.apply session with draft }) := by
    rw [obeyToken_parameter_eq, on_bind_of_ok (on_checkpoint_of_ordinary ordinary scope),
      obeyParameter, taken_append unknown known, on_bind_of_ok obeyed]
    exact remembered
  have reached : Ordinary { setting.apply session with draft } :=
    (ordinary.beside (beside_apply setting session)).same rfl rfl
  rw [dispatch, on_bind_of_ok step, on_dispatch_unknown obey scope reached unknown]

end Dispatching

/-! ## Words of the appearance -/

/-- Somewhere in the row a file is named like a word that is known, which is then taken for that
word. -/
def misnamesFile : List String → Bool
  | word :: next :: rest =>
      (word = Parameter.filename.name && isKnown next) || misnamesFile (next :: rest)
  | _ => false

theorem misnamesFile_of_append {front : List String} {next : String} {back : List String}
    (named : misnamesFile (front ++ Parameter.filename.name :: next :: back) = false) :
    isKnown next = false := by
  induction front with
  | nil =>
      rw [List.nil_append, misnamesFile, Bool.or_eq_false_iff] at named
      simpa using named.1
  | cons word front induction =>
      apply induction
      cases front with
      | nil => exact (Bool.or_eq_false_iff.1 named).2
      | cons second front => exact (Bool.or_eq_false_iff.1 named).2

theorem taken_known {word : String} (known : isKnown word = true) (rest : List String) :
    taken (word :: rest) = [] := by
  simp [taken, known]

theorem isKnown_eq_false {word : String} (unknown : word ∉ Keyword.names) : isKnown word = false := by
  rw [isKnown, Bool.eq_false_iff]
  exact fun known => unknown (Keyword.mem_names known)

theorem map_argument_trimmedRow {row : List (List Char)} (legible : ∀ token ∈ row, Legible token)
    (shut : ∀ token ∈ row, openAfter false (token.map unmark) = false) :
    (trimmedRow row).map (fun token => argument (String.ofList token)) =
      row.map fun token => argument (String.ofList token) := by
  induction row with
  | nil => rfl
  | cons token row induction =>
      obtain ⟨here, others⟩ := List.forall_mem_cons.1 legible
      obtain ⟨hereShut, othersShut⟩ := List.forall_mem_cons.1 shut
      cases row with
      | nil => exact congrArg (· :: []) (argument_trimEnd here hereShut)
      | cons next row => exact congrArg (_ :: ·) (induction others othersShut)

theorem mem_trimmedRow {row : List (List Char)} {word : List Char} (among : word ∈ trimmedRow row) :
    word ∈ row ∨ ∃ token ∈ row, word = Text.trimEnd token := by
  induction row with
  | nil => simp [trimmedRow] at among
  | cons token row induction =>
      cases row with
      | nil => exact .inr ⟨token, List.mem_cons_self .., List.mem_singleton.1 among⟩
      | cons next row =>
          rcases List.mem_cons.1 among with rfl | later
          · exact .inl (List.mem_cons_self ..)
          · rcases induction later with inside | ⟨other, inside, trimmed⟩
            · exact .inl (List.mem_cons_of_mem token inside)
            · exact .inr ⟨other, List.mem_cons_of_mem token inside, trimmed⟩

end Session

namespace Lead

open Session

/-- Only the name of a file can become a known word when it loses the blanks at its end. -/
theorem unknown_of_ne (lead : Lead) (other : lead.parameter ≠ .filename) :
    ∀ word ∈ (trimmedRow lead.words).map String.ofList, isKnown word = false := by
  intro word among
  obtain ⟨token, inside, rfl⟩ := List.mem_map.1 among
  rcases mem_trimmedRow inside with own | ⟨original, own, rfl⟩
  · exact lead.unknown token own
  · refine isKnown_eq_false fun name => ?_
    have reads := lead.reads fun _ => none
    have argued := (Parameter.argument_of_setting lead.appearance reads _
      (List.mem_map_of_mem (f := fun token => argument (String.ofList token)) own)).2 other
    rw [← argument_trimEnd (lead.legible original own) (lead.shut original own),
      Keyword.argument_names _ name] at argued
    exact argued name

theorem words_of_filename (lead : Lead) (file : lead.parameter = .filename) :
    ∃ token, lead.words = [token] := by
  have reads := lead.reads fun _ => none
  rw [file] at reads
  rcases held : lead.words with _ | ⟨token, _ | ⟨second, others⟩⟩
  · rw [held] at reads
    cases reads
  · exact ⟨token, rfl⟩
  · rw [held] at reads
    cases reads

theorem unknown_row (lead : Lead) {front back : List String}
    (named : misnamesFile (front ++ (lead.row ++ back)) = false) :
    ∀ word ∈ (trimmedRow lead.words).map String.ofList, isKnown word = false := by
  by_cases file : lead.parameter = .filename
  · obtain ⟨token, taken⟩ := lead.words_of_filename file
    rw [Lead.row, taken, file] at named
    rw [taken]
    intro word among
    obtain rfl : word = String.ofList (Text.trimEnd token) := by
      simpa [trimmedRow] using among
    exact misnamesFile_of_append named
  · exact lead.unknown_of_ne file

/-- What is written of it is taken for what it was: none of its words is known. -/
def Rereadable (lead : Lead) : Prop :=
  ∀ word ∈ (trimmedRow lead.words).map String.ofList, isKnown word = false

theorem on_dispatch (lead : Lead) (obey : Command → List String → Action Unit) (scope : Scope)
    {session : Session} (ordinary : Ordinary session) (rereadable : lead.Rereadable)
    {rest : List String} (known : taken rest = []) :
    ∃ draft, draft.inHistory = session.draft.inHistory ∧
      (dispatch obey scope (lead.row ++ rest)).on session =
        (dispatch obey scope rest).on { lead.setting.apply session with draft } := by
  have reads : lead.parameter.setting session.placing
      (((trimmedRow lead.words).map String.ofList).map argument) = .ok lead.setting := by
    rw [List.map_map]
    exact (congrArg _ (map_argument_trimmedRow lead.legible lead.shut)).trans
      (lead.reads session.placing)
  exact on_dispatch_parameter obey scope ordinary rereadable known reads

theorem stage_apply (lead : Lead) (session : Session) :
    (lead.setting.apply session).stage = session.stage :=
  (lead.setting.stage_apply session).trans
    (Parameter.onStage_of_appearance lead.appearance (lead.reads fun _ => none) session.stage)

end Lead

namespace Session

theorem taken_leads (leads : List Lead) {rest : List String} (known : taken rest = []) :
    taken (leads.flatMap Lead.row ++ rest) = [] := by
  cases leads with
  | nil => exact known
  | cons lead leads => exact taken_known (isKnown_name (.parameter lead.parameter)) _

/-- The session once all of it has been set. -/
def dressed (leads : List Lead) (session : Session) : Session :=
  leads.foldl (fun session lead => lead.setting.apply session) session

theorem dressed_cons (lead : Lead) (leads : List Lead) (session : Session) :
    dressed (lead :: leads) session = dressed leads (lead.setting.apply session) := rfl

theorem dressed_draft (leads : List Lead) (draft : Draft) (session : Session) :
    dressed leads { session with draft } = { dressed leads session with draft } := by
  induction leads generalizing session with
  | nil => rfl
  | cons lead leads induction =>
      have same : lead.setting.apply { session with draft } =
          { lead.setting.apply session with draft } := by
        cases lead.setting <;> rfl
      rw [dressed_cons, dressed_cons, same, induction]

theorem beside_dressed (leads : List Lead) (session : Session) :
    Beside session (dressed leads session) := by
  induction leads generalizing session with
  | nil => exact .refl session
  | cons lead leads induction => exact (beside_apply lead.setting session).trans (induction _)

theorem dressed_stage (leads : List Lead) (session : Session) :
    (dressed leads session).stage = session.stage := by
  induction leads generalizing session with
  | nil => rfl
  | cons lead leads induction => exact (induction _).trans (lead.stage_apply session)

theorem rereadable_of_named {leads : List Lead} {front rest : List String}
    (named : misnamesFile (front ++ (leads.flatMap Lead.row ++ rest)) = false) :
    ∀ lead ∈ leads, lead.Rereadable := by
  induction leads generalizing front with
  | nil => exact fun _ among => absurd among List.not_mem_nil
  | cons lead leads induction =>
      rw [List.flatMap_cons, List.append_assoc] at named
      refine List.forall_mem_cons.2 ⟨lead.unknown_row named, ?_⟩
      rw [← List.append_assoc] at named
      exact induction named

theorem on_dispatch_leads (obey : Command → List String → Action Unit) (scope : Scope)
    {leads : List Lead} {session : Session} (ordinary : Ordinary session)
    (rereadable : ∀ lead ∈ leads, lead.Rereadable) {rest : List String} (known : taken rest = []) :
    ∃ draft, draft.inHistory = session.draft.inHistory ∧
      (dispatch obey scope (leads.flatMap Lead.row ++ rest)).on session =
        (dispatch obey scope rest).on { dressed leads session with draft } := by
  induction leads generalizing session with
  | nil => exact ⟨session.draft, rfl, rfl⟩
  | cons lead leads induction =>
      obtain ⟨here, others⟩ := List.forall_mem_cons.1 rereadable
      rw [List.flatMap_cons, List.append_assoc]
      obtain ⟨draft, inHistory, runs⟩ :=
        lead.on_dispatch obey scope ordinary here (taken_leads leads known)
      have reached : Ordinary { lead.setting.apply session with draft } :=
        (ordinary.beside (beside_apply lead.setting session)).same rfl rfl
      obtain ⟨draft', inHistory', runs'⟩ := induction reached others
      refine ⟨draft', inHistory'.trans inHistory, runs.trans ?_⟩
      rw [runs', dressed_draft]
      rfl

end Session

/-! ## Constructions -/

namespace Stage

def sheet (stage : Stage) : Except Unbuildable Ledger :=
  match stage.preset with
  | some preset => .ok (Engine.plain.fromPreset preset)
  | none => Engine.plain.fromCorners stage.corners

def sheetCall (stage : Stage) : Call :=
  match stage.preset with
  | some preset => .preset preset
  | none => .corners stage.corners

def construction (stage : Stage) : String :=
  match stage.preset with
  | some preset => Session.presetConstruction preset
  | none => Session.cornerConstruction stage.corners

def constructionRow (stage : Stage) : List String :=
  match stage.preset with
  | some preset => [Parameter.paper.name, presetToken preset]
  | none => cornerGroups stage.corners

def rebuilt (stage : Stage) : Stage :=
  match stage.preset with
  | some preset => { empty with preset := preset }
  | none => { empty with corners := stage.corners }

theorem constructs (stage : Stage) :
    Constructs stage.construction (stage.constructionRow ++ [Command.new.name]) := by
  unfold construction constructionRow
  split
  · exact .preset _
  · exact .corners _

theorem rebuilt_sheet (stage : Stage) : stage.rebuilt.sheet = stage.sheet := by
  unfold rebuilt
  cases found : stage.preset <;> simp [sheet, found, empty]

theorem rebuilt_hasPaper {stage : Stage} (paper : stage.hasPaper = true) :
    stage.rebuilt.hasPaper = true := by
  unfold rebuilt
  cases found : stage.preset with
  | some preset => rfl
  | none => simpa [hasPaper, found, empty] using paper

def Printable (stage : Stage) : Prop := ∀ corner ∈ stage.corners, corner.Printable

end Stage

namespace Session

theorem on_stagedSheet {session : Session} (ordinary : Ordinary session) (stage : Stage) :
    (stagedSheet stage).on session =
      ((stage.sheet.map fun ledger => (ledger, stage.construction)).mapError Fault.unbuildable,
        session.noting stage.sheetCall) := by
  unfold stagedSheet Stage.sheet Stage.construction Stage.sheetCall
  cases stage.preset with
  | some preset =>
      dsimp only
      rw [on_bind_of_ok (on_note _ session), on_bind_of_ok (Action.on_get _), Action.on_pure,
        (ordinary.noting _).foldsPlainly.fromPreset]
      rfl
  | none =>
      dsimp only
      rw [on_bind_of_ok (on_note _ session), on_bind_of_ok (Action.on_get _),
        (ordinary.noting _).foldsPlainly.fromCorners, Action.on_bind, on_lift]
      cases Engine.plain.fromCorners stage.corners <;> rfl

theorem journal_of_sheet {stage : Stage} {ledger : Ledger} (sheet : stage.sheet = .ok ledger) :
    ledger.journal = [] := by
  unfold Stage.sheet at sheet
  split at sheet
  · cases sheet
    rfl
  · simp only [Engine.plain, Ledger.ofCorners?] at sheet
    split at sheet
    · rename_i found
      split at found
      · cases found
        cases sheet
        rfl
      · cases found
    · cases sheet

def making (scope : Scope) (rest : List String) (ledger : Ledger) (session : Session) : Session :=
  { ((session.noting session.stage.sheetCall).replacing ledger).rebasing scope
      session.stage.construction rest with stage := .empty }

theorem on_makePaper {session : Session} (ordinary : Ordinary session) {ledger : Ledger}
    (paper : session.stage.hasPaper = true) (sheet : session.stage.sheet = .ok ledger)
    (scope : Scope) (rest : List String) :
    (makePaper scope rest).on session = (.ok (), session.making scope rest ledger) := by
  have granted : (refuseIf (!session.stage.hasPaper) (.unbuildable .nothingStaged)).on session =
      (.ok (), session) := by
    simp [paper]
  have staged : (stagedSheet session.stage).on session =
      (.ok (ledger, session.stage.construction), session.noting session.stage.sheetCall) := by
    rw [on_stagedSheet ordinary, sheet]
    rfl
  rw [makePaper, on_bind_of_ok (Action.on_get _), on_bind_of_ok granted, on_bind_of_ok staged]
  rfl

theorem making_of_ok {session after : Session} (ordinary : Ordinary session) {scope : Scope}
    {rest : List String} (made : (makePaper scope rest).on session = (.ok (), after)) :
    session.stage.hasPaper = true ∧
      ∃ ledger, session.stage.sheet = .ok ledger ∧ after = session.making scope rest ledger := by
  obtain ⟨_, _, got, others⟩ := ok_of_bind made
  cases got
  obtain ⟨_, _, granted, others⟩ := ok_of_bind others
  obtain ⟨_, _, staged, -⟩ := ok_of_bind others
  rw [on_refuseIf] at granted
  have paper : session.stage.hasPaper = true := by
    cases held : session.stage.hasPaper with
    | true => rfl
    | false =>
        rw [held] at granted
        cases granted
  obtain rfl : session = _ := congrArg Prod.snd granted
  rw [on_stagedSheet ordinary] at staged
  cases sheet : session.stage.sheet with
  | error cause =>
      rw [sheet] at staged
      cases staged
  | ok ledger =>
      refine ⟨paper, ledger, rfl, ?_⟩
      rw [on_makePaper ordinary paper sheet] at made
      exact (congrArg Prod.snd made).symm

theorem isKnown_of_fragment {word : String} (fragment : isFragment word = true) :
    isKnown word = false := by
  have unbracketed : ∀ name ∈ Keyword.names, isFragment name = false := by decide
  refine isKnown_eq_false fun among => ?_
  rw [unbracketed word among] at fragment
  cases fragment

theorem isKnown_of_bracket {word : String} (bracket : '[' ∈ word.toList) : isKnown word = false :=
  isKnown_of_fragment (List.any_eq_true.2 ⟨'[', bracket, rfl⟩)

theorem taken_cornerGroups (corners : List Planar) (rest : List String) :
    taken (cornerGroups corners ++ Command.new.name :: rest) = [] := by
  cases corners with
  | nil => exact taken_known (isKnown_name (.command .new)) rest
  | cons corner corners => exact taken_known (isKnown_name (.parameter .corner)) _

section Constructing

variable (obey : Command → List String → Action Unit) (scope : Scope)

theorem on_dispatch_cornerGroups {session : Session} (ordinary : Ordinary session)
    {corners : List Planar} (printable : ∀ corner ∈ corners, corner.Printable) (rest : List String) :
    ∃ draft, draft.inHistory = session.draft.inHistory ∧
      (dispatch obey scope (cornerGroups corners ++ Command.new.name :: rest)).on session =
        (dispatch obey scope (Command.new.name :: rest)).on
          { session with
            stage := { session.stage with corners := session.stage.corners ++ corners }
            draft } := by
  induction corners generalizing session with
  | nil =>
      refine ⟨session.draft, rfl, ?_⟩
      rw [List.append_nil]
      rfl
  | cons corner corners induction =>
      obtain ⟨here, others⟩ := List.forall_mem_cons.1 printable
      have unknown : ∀ word ∈ [cornerToken corner], isKnown word = false := by
        intro word among
        rw [List.mem_singleton.1 among]
        exact isKnown_of_bracket (by simp [cornerToken])
      have reads : Parameter.corner.setting session.placing ([cornerToken corner].map argument) =
          .ok (.corner corner) := by
        simp only [List.map_cons, List.map_nil, Parameter.setting, planar?_cornerToken here]
        rfl
      obtain ⟨draft, inHistory, runs⟩ :=
        on_dispatch_parameter obey scope ordinary unknown (taken_cornerGroups corners rest) reads
      have reached : Ordinary { (Setting.corner corner).apply session with draft } :=
        (ordinary.beside (beside_apply _ session)).same rfl rfl
      obtain ⟨draft', inHistory', runs'⟩ := induction reached others
      refine ⟨draft', inHistory'.trans inHistory, (runs.trans runs').trans ?_⟩
      show (dispatch obey scope (Command.new.name :: rest)).on
          { session with
            stage := { session.stage with
              corners := session.stage.corners ++ [corner] ++ corners }
            draft := draft' } = _
      rw [List.append_assoc, List.singleton_append]

theorem on_dispatch_presetToken {session : Session} (ordinary : Ordinary session) (preset : Preset)
    (rest : List String) :
    ∃ draft, draft.inHistory = session.draft.inHistory ∧
      (dispatch obey scope
          (Parameter.paper.name :: presetToken preset :: Command.new.name :: rest)).on session =
        (dispatch obey scope (Command.new.name :: rest)).on
          { session with stage := { session.stage with preset := preset }, draft } := by
  have unknown : ∀ word ∈ [presetToken preset], isKnown word = false := by
    intro word among
    rw [List.mem_singleton.1 among]
    exact isKnown_of_bracket (by simp [presetToken])
  have named : Parameter.paper.sheetOf (argument (presetToken preset)) = .ok (.preset preset) := by
    cases preset <;> decide
  have reads : Parameter.paper.setting session.placing ([presetToken preset].map argument) =
      .ok (.preset preset) := by
    rw [List.map_cons, List.map_nil, Parameter.setting, named]
  obtain ⟨draft, inHistory, runs⟩ :=
    on_dispatch_parameter obey scope ordinary unknown
      (taken_known (isKnown_name (.command .new)) rest) reads
  exact ⟨draft, inHistory, runs⟩

theorem on_dispatch_constructionRow {session : Session} (blank : Blank session) {stage : Stage}
    (printable : stage.Printable) (rest : List String) :
    ∃ draft, draft.inHistory = session.draft.inHistory ∧
      (dispatch obey scope (stage.constructionRow ++ Command.new.name :: rest)).on session =
        (dispatch obey scope (Command.new.name :: rest)).on
          { session with stage := stage.rebuilt, draft } := by
  unfold Stage.constructionRow Stage.rebuilt
  split
  · rename_i preset _
    obtain ⟨draft, inHistory, runs⟩ :=
      on_dispatch_presetToken obey scope blank.ordinary preset rest
    refine ⟨draft, inHistory, runs.trans ?_⟩
    rw [blank.stage]
  · obtain ⟨draft, inHistory, runs⟩ :=
      on_dispatch_cornerGroups obey scope blank.ordinary printable rest
    refine ⟨draft, inHistory, runs.trans ?_⟩
    rw [blank.stage]
    rfl

theorem taken_constructionRow (stage : Stage) (rest : List String) :
    taken (stage.constructionRow ++ Command.new.name :: rest) = [] := by
  unfold Stage.constructionRow
  split
  · exact taken_known (isKnown_name (.parameter .paper)) _
  · exact taken_cornerGroups _ rest

/-- The words in front set the appearance, and the construction stages its sheet. -/
theorem on_dispatch_prelude {session : Session} (blank : Blank session) {leads : List Lead}
    (rereadable : ∀ lead ∈ leads, lead.Rereadable) {stage : Stage} (printable : stage.Printable)
    (rest : List String) :
    ∃ draft, draft.inHistory = session.draft.inHistory ∧
      (dispatch obey scope (leads.flatMap Lead.row ++
          (stage.constructionRow ++ Command.new.name :: rest))).on session =
        (dispatch obey scope (Command.new.name :: rest)).on
          { dressed leads session with stage := stage.rebuilt, draft } := by
  obtain ⟨draft, inHistory, runs⟩ :=
    on_dispatch_leads obey scope blank.ordinary rereadable (taken_constructionRow stage rest)
  have led : Blank { dressed leads session with draft } :=
    ⟨(blank.ordinary.beside (beside_dressed leads session)).same rfl rfl,
      (dressed_stage leads session).trans blank.stage⟩
  obtain ⟨draft', inHistory', runs'⟩ := on_dispatch_constructionRow obey scope led printable rest
  exact ⟨draft', inHistory'.trans inHistory, runs.trans runs'⟩

end Constructing

theorem on_obeyToken_new {session : Session} (ordinary : Ordinary session) {ledger : Ledger}
    (paper : session.stage.hasPaper = true) (sheet : session.stage.sheet = .ok ledger)
    (nested : Nested) (scope : Scope) (takeBack : List String → Action Unit) (rest : List String) :
    ∃ after, Beside (session.making scope rest ledger) after ∧ after.stage = .empty ∧
      (obeyToken (obey nested scope takeBack) scope Command.new.name rest).on session =
        (.ok (), after) := by
  have granted : (permit .new).on session = (.ok (), session) := on_permit_of_user rfl rfl
  obtain ⟨after, applied, beside, stage⟩ :=
    idle_applied (scope.recording && Command.new ≠ .undo) (session.making scope rest ledger)
  refine ⟨after, beside, stage, ?_⟩
  rw [obeyToken_command_eq, on_bind_of_ok (on_checkpoint_of_ordinary ordinary scope),
    obeyCommand, on_bind_of_ok granted, Session.obey,
    on_bind_of_ok (on_makePaper ordinary paper sheet scope rest)]
  exact applied

theorem making_model (scope : Scope) (rest : List String) (ledger : Ledger) (session : Session) :
    (session.making scope rest ledger).model = some ledger := by
  unfold making rebasing
  split <;> rfl

theorem Ordinary.making {session : Session} (ordinary : Ordinary session) (scope : Scope)
    (rest : List String) (ledger : Ledger) : Ordinary (session.making scope rest ledger) := by
  have noted : Ordinary (session.noting session.stage.sheetCall) := ordinary.noting _
  have replaced : Ordinary ((session.noting session.stage.sheetCall).replacing ledger) :=
    noted.same rfl rfl
  exact (replaced.rebasing scope session.stage.construction rest).same rfl rfl

/-- The entry of a rewritten history makes in a blank session what it was written for. -/
theorem on_dispatch_rebased {session : Session} (ordinary : Ordinary session)
    {ledger : Ledger} (paper : session.stage.hasPaper = true)
    (sheet : session.stage.sheet = .ok ledger) (printable : session.stage.Printable)
    (leads : List Lead) (rest : List String) {blank : Session} (isBlank : Blank blank)
    (named : misnamesFile
      (leads.flatMap Lead.row ++ (session.stage.constructionRow ++ Command.new.name :: rest)) = false)
    (nested : Nested) (scope scope' : Scope) (takeBack : List String → Action Unit) :
    ∃ staged made, Beside blank staged ∧ Beside (staged.making scope' rest ledger) made ∧
      Alike Eq (session.making scope rest ledger) made ∧
      (dispatch (obey nested scope' takeBack) scope' (leads.flatMap Lead.row ++
          (session.stage.constructionRow ++ Command.new.name :: rest))).on blank =
        (dispatch (obey nested scope' takeBack) scope' rest).on made := by
  have inFront : misnamesFile ([] ++ (leads.flatMap Lead.row ++
      (session.stage.constructionRow ++ Command.new.name :: rest))) = false := named
  obtain ⟨draft, inHistory, runs⟩ :=
    on_dispatch_prelude (obey nested scope' takeBack) scope' isBlank (rereadable_of_named inFront)
      printable rest
  have beside := beside_dressed leads blank
  have besideStaged : Beside blank
      { dressed leads blank with stage := session.stage.rebuilt, draft } :=
    ⟨beside.engine, beside.transaction, beside.history, beside.model, beside.watch, inHistory⟩
  have stagedOrdinary := isBlank.ordinary.beside besideStaged
  obtain ⟨made, besideMade, stageMade, runsMade⟩ :=
    on_obeyToken_new stagedOrdinary (Stage.rebuilt_hasPaper paper)
      ((Stage.rebuilt_sheet session.stage).trans sheet) nested scope' takeBack rest
  refine ⟨_, made, besideStaged, besideMade, ?_, ?_⟩
  · exact
      { ordinary := ordinary.making scope rest ledger
        ordinary' := (stagedOrdinary.making scope' rest ledger).beside besideMade
        stage := stageMade.symm
        content := by rw [besideMade.model, making_model, making_model] }
  · rw [runs, dispatch, on_bind_of_ok runsMade]

end Session

end PaperFolding
