import PaperFolding.Proofs.Session.Rebuilding

/-!
What a statement that makes and folds paper does to the history: nothing, or it leaves one entry, which
by itself does again what the statement has done.
-/

namespace PaperFolding

open Script

namespace Session

/-- The corners that the row stages, if all of it is obeyed. -/
def stagedCorners : List String → List Planar
  | [] => []
  | word :: rest =>
      (match Keyword.ofWord? word with
        | some (.parameter parameter) =>
            match parameter.setting (fun _ => none) ((taken rest).map argument) with
            | .ok setting => setting.ownCorners
            | .error _ => []
        | _ => []) ++ stagedCorners rest

theorem mem_stagedCorners {word : String} {rest : List String} {parameter : Parameter}
    {placing : Placing} {setting : Setting} {corner : Planar}
    (found : Keyword.ofWord? word = some (.parameter parameter))
    (reads : parameter.setting placing ((taken rest).map argument) = .ok setting)
    (own : corner ∈ setting.ownCorners) : corner ∈ stagedCorners (word :: rest) := by
  have anywhere := Parameter.setting_of_ownCorners reads (List.ne_nil_of_mem own) fun _ => none
  simp only [stagedCorners, found, anywhere]
  exact List.mem_append_left _ own

/-! ## A whole row -/

theorem Alike.refl {session : Session} (ordinary : Ordinary session) : Alike Eq session session :=
  ⟨ordinary, ordinary, rfl, rfl⟩

theorem Ordinary.obeyToken {nested : Nested} {scope : Scope} {takeBack : List String → Action Unit}
    {token : String} {rest : List String} {session after : Session} (ordinary : Ordinary session)
    (folds : ∀ command, Keyword.ofWord? token = some (.command command) →
      command ∈ foldingCommands)
    (done : (obeyToken (obey nested scope takeBack) scope token rest).on session =
      (.ok (), after)) : Ordinary after := by
  have mirrors : Mirrors Eq (Session.obeyToken (obey nested scope takeBack) scope token rest)
      (Session.obeyToken (obey nested scope takeBack) scope token rest) session session :=
    (Alike.refl ordinary).obeyToken folds
  obtain ⟨_, -, alike⟩ := mirrors () after done
  exact alike.ordinary

/-- An entry that by itself does in a blank session what was done in this one. -/
def Retells (entry : String) (session : Session) : Prop :=
  ∀ blank, Blank blank → misnamesFile (tokens entry) = false →
    ∀ nested scope takeBack, ∃ told,
      (dispatch (obey nested scope takeBack) scope (tokens entry)).on blank = (.ok (), told) ∧
        Alike Eq session told

/-- Where a statement has come to that has so many tokens left: its corners can be printed, and what
it has set of the appearance can be written back if there is paper to be made yet. -/
structure Writable (row : List String) (session : Session) : Prop where
  ordinary : Ordinary session
  rows : Row (row.map String.toList)
  printable : session.stage.Printable
  corners : ∀ corner ∈ stagedCorners row, corner.Printable
  leads : Command.new.name ∈ row → ∃ leads : List Lead, session.draft.lead = leads.map Lead.entry

/-- Where a statement that makes and folds paper has come to. -/
structure Underway (row : List String) (session : Session) : Prop extends Writable row session where
  folds : OnlyFolds row

/-- What stands in front of a command can be written back. -/
theorem exists_lead {parameter : Parameter} {rest : List String} {placing : Placing}
    {setting : Setting} {command : Command} (appearance : parameter.isAppearance = true)
    (rows : Row (rest.map String.toList)) (more : command.name ∈ rest)
    (reads : parameter.setting placing ((taken rest).map argument) = .ok setting) :
    ∃ lead : Lead, lead.entry = leadEntry parameter.name (taken rest) ∧ lead.setting = setting := by
  have unknown : ∀ word ∈ taken rest, isKnown word = false := by
    intro word among
    simpa using List.all_eq_true.1 List.all_takeWhile word among
  have split : taken rest ++ rest.dropWhile (fun word => !isKnown word) = rest :=
    List.takeWhile_append_dropWhile
  have behind : rest.dropWhile (fun word => !isKnown word) ≠ [] := by
    intro nothing
    rw [nothing, List.append_nil] at split
    have known : isKnown command.name = true := isKnown_name (.command command)
    rw [unknown command.name (by rw [split]; exact more)] at known
    cases known
  rw [← split, List.map_append] at rows
  have back : ((taken rest).map String.toList).map (fun token => argument (String.ofList token)) =
      (taken rest).map argument := by
    simp [Function.comp_def]
  refine ⟨⟨parameter, (taken rest).map String.toList, appearance, ?_, ?_, ?_, setting, ?_⟩, ?_, rfl⟩
  · exact fun token among => rows.legible token (List.mem_append_left _ among)
  · exact rows.shut (by simpa using behind)
  · intro token among
    obtain ⟨word, inside, rfl⟩ := List.mem_map.1 among
    rw [String.ofList_toList]
    exact unknown word inside
  · intro elsewhere
    rw [back, Parameter.setting_appearance appearance elsewhere placing, reads]
  · simp [Lead.entry, Function.comp_def]

section Steps

variable {nested : Nested} {scope : Scope} {takeBack : List String → Action Unit}
  {token : String} {rest : List String} {session after : Session}

namespace Writable

theorem advance (writable : Writable (token :: rest) session) (ordinary : Ordinary after)
    (printable : after.stage.Printable)
    (leads : Command.new.name ∈ rest →
      ∃ leads : List Lead, after.draft.lead = leads.map Lead.entry) : Writable rest after where
  ordinary := ordinary
  rows := writable.rows.tail
  printable := printable
  corners := fun corner among => writable.corners corner (List.mem_append_right _ among)
  leads := leads

theorem leads_tail (writable : Writable (token :: rest) session) (more : Command.new.name ∈ rest) :
    ∃ leads : List Lead, session.draft.lead = leads.map Lead.entry :=
  writable.leads (List.mem_cons_of_mem token more)

theorem idle_step (writable : Writable (token :: rest) session) : Writable rest session :=
  writable.advance writable.ordinary writable.printable writable.leads_tail

theorem parameter_step (writable : Writable (token :: rest) session) {parameter : Parameter}
    {setting : Setting} (found : Keyword.ofWord? token = some (.parameter parameter))
    (reads : parameter.setting session.placing ((taken rest).map argument) = .ok setting)
    (ends : after = if scope.recording && parameter.isAppearance then
        (setting.apply session).remembering parameter.name (taken rest)
      else setting.apply session) :
    Writable rest after ∧ Beside session after := by
  obtain ⟨beside, stage⟩ := beside_setting ends
  have draft : (setting.apply session).draft = session.draft := by
    cases setting <;> rfl
  refine ⟨writable.advance (writable.ordinary.beside beside) ?_ ?_, beside⟩
  · rw [stage]
    intro corner staged
    rcases Setting.corners_onStage staged with before | own
    · exact writable.printable corner before
    · exact writable.corners corner (mem_stagedCorners found reads own)
  · intro more
    obtain ⟨leads, led⟩ := writable.leads_tail more
    rw [ends]
    split
    · rename_i remembers
      obtain ⟨lead, entry, -⟩ :=
        exists_lead (Bool.and_eq_true_iff.1 remembers).2 writable.rows.tail more reads
      refine ⟨leads ++ [lead], ?_⟩
      rw [List.map_append, List.map_singleton, entry, ← led, ← draft]
      rfl
    · exact ⟨leads, by rw [draft, led]⟩

/-- A command that leaves nothing staged and the draft as it is. -/
theorem untold_step (writable : Writable (token :: rest) session) (ordinary : Ordinary after)
    (lead : after.draft.lead = session.draft.lead) (stage : after.stage = .empty) :
    Writable rest after := by
  refine writable.advance ordinary ?_ ?_
  · rw [stage]
    exact fun corner among => absurd among List.not_mem_nil
  · rw [lead]
    exact writable.leads_tail

theorem fold_step (writable : Writable (token :: rest) session) {command : Command}
    {reached : Session} (folds : command ∈ plainFolds)
    (obeyed : (obey nested scope takeBack command rest).on session = (.ok (), reached))
    (ordinary : Ordinary after) (beside : Beside reached after)
    (stage : after.stage = reached.stage) (lead : after.draft.lead = reached.draft.lead) :
    Writable rest after ∧ after.history = session.history ∧ after.engine = session.engine := by
  obtain ⟨⟨engine, history, draft⟩, cleared⟩ := obey_frame folds obeyed
  refine ⟨writable.untold_step ordinary ?_ (stage.trans cleared), beside.history.trans history,
    beside.engine.trans engine⟩
  rw [lead, draft]

theorem making_step (writable : Writable (Command.new.name :: rest) session)
    (recording : scope.recording = true) {ledger : Ledger}
    (beside : Beside (session.making scope rest ledger) after)
    (stage : after.stage = .empty) (lead : after.draft.lead = session.draft.lead) :
    Writable rest after ∧
      ∃ leads : List Lead, after.history =
        [rebasedEntry (leads.map Lead.entry) session.stage.construction rest] := by
  obtain ⟨leads, led⟩ := writable.leads (List.mem_cons_self ..)
  refine ⟨writable.untold_step ?_ lead stage, leads, ?_⟩
  · exact (writable.ordinary.making scope rest ledger).beside beside
  · rw [beside.history, ← led, making, rebasing, if_pos recording]
    rfl

theorem tokens_rebased (writable : Writable (Command.new.name :: rest) session)
    (leads : List Lead) :
    tokens (rebasedEntry (leads.map Lead.entry) session.stage.construction rest) =
      leads.flatMap Lead.row ++ (session.stage.constructionRow ++ Command.new.name :: rest) := by
  have constructs := session.stage.constructs
  rw [tokens_rebasedEntry leads constructs.toStandalone writable.rows.tail,
    staying_eq leads constructs]
  simp only [List.append_assoc, List.singleton_append]

end Writable

namespace Underway

theorem ordinary_step (underway : Underway (token :: rest) session)
    (done : (obeyToken (obey nested scope takeBack) scope token rest).on session =
      (.ok (), after)) : Ordinary after :=
  underway.ordinary.obeyToken (underway.folds token (List.mem_cons_self ..)) done

theorem advance (underway : Underway (token :: rest) session) (next : Writable rest after) :
    Underway rest after :=
  ⟨next, fun word among => underway.folds word (List.mem_cons_of_mem token among)⟩

theorem retells (underway : Underway (Command.new.name :: rest) session) {ledger : Ledger}
    (paper : session.stage.hasPaper = true) (sheet : session.stage.sheet = .ok ledger)
    (leads : List Lead) {reached : Session} (folds : OnlyFolds rest)
    (beside : Beside (session.making scope rest ledger) reached) (stage : reached.stage = .empty)
    (others : (dispatch (obey nested scope takeBack) scope rest).on reached = (.ok (), after)) :
    Retells (rebasedEntry (leads.map Lead.entry) session.stage.construction rest) after := by
  have reads := underway.tokens_rebased leads
  intro blank isBlank named nested' scope' takeBack'
  rw [reads] at named ⊢
  obtain ⟨-, made, -, -, alike, runs⟩ :=
    on_dispatch_rebased underway.ordinary paper sheet underway.printable leads rest isBlank named
      nested' scope scope' takeBack'
  rw [runs]
  have alikeReached : Alike Eq reached made :=
    alike.beside beside (.refl made) (stage.trans alike.stage)
  exact alikeReached.dispatch folds () after others

end Underway

end Steps

theorem draft_making (scope : Scope) (rest : List String) (ledger : Ledger) (session : Session) :
    (session.making scope rest ledger).draft.lead = session.draft.lead := by
  unfold making rebasing
  split <;> rfl

/-- One token more leaves the history alone, or makes paper and leaves the entry for it. -/
theorem Underway.step {nested : Nested} {scope : Scope} {takeBack : List String → Action Unit}
    {token : String} {rest : List String} {session after : Session}
    (recording : scope.recording = true) (underway : Underway (token :: rest) session)
    (done : (obeyToken (obey nested scope takeBack) scope token rest).on session =
      (.ok (), after)) :
    Underway rest after ∧
      (after.history = session.history ∨
        token = Command.new.name ∧ ∃ (ledger : Ledger) (leads : List Lead),
          session.stage.hasPaper = true ∧ session.stage.sheet = .ok ledger ∧
          Beside (session.making scope rest ledger) after ∧ after.stage = .empty ∧
          after.history = [rebasedEntry (leads.map Lead.entry) session.stage.construction rest]) := by
  have ordinary := underway.ordinary_step done
  rcases obeyToken_cases done with ⟨rfl, -⟩ | ⟨parameter, setting, found, reads, ends⟩ |
    ⟨command, ran, found, runs, ends⟩
  · exact ⟨underway.advance underway.idle_step, .inl rfl⟩
  · obtain ⟨next, beside⟩ := underway.parameter_step found reads ends
    exact ⟨underway.advance next, .inl beside.history⟩
  · obtain ⟨beside, stage, lead⟩ := beside_applied ends
    have folds := underway.folds token (List.mem_cons_self ..) command found
    by_cases other : command = .new
    · subst other
      obtain rfl : Command.new.name = token := Keyword.name_of_ofWord? found
      obtain ⟨paper, ledger, sheet, rfl⟩ := making_of_ok underway.ordinary runs
      have cleared : after.stage = .empty := stage.trans rfl
      obtain ⟨next, leads, history⟩ :=
        underway.making_step recording beside cleared
          (lead.trans (draft_making scope rest ledger session))
      exact ⟨underway.advance next,
        .inr ⟨rfl, ledger, leads, paper, sheet, beside, cleared, history⟩⟩
    · obtain ⟨next, same, -⟩ := underway.fold_step ((List.mem_cons.1 folds).resolve_left other)
        runs ordinary beside stage lead
      exact ⟨underway.advance next, .inl same⟩

/-- An obeyed row has left the history alone, or has left one entry in it that retells everything. -/
theorem history_of_dispatch {nested : Nested} {scope : Scope} {takeBack : List String → Action Unit}
    {row : List String} {session after : Session} (recording : scope.recording = true)
    (underway : Underway row session)
    (done : (dispatch (obey nested scope takeBack) scope row).on session = (.ok (), after)) :
    Underway [] after ∧
      (after.history = session.history ∨
        ∃ entry, after.history = [entry] ∧ Retells entry after) := by
  induction row generalizing session with
  | nil =>
      cases done
      exact ⟨underway, .inl rfl⟩
  | cons token rest induction =>
      obtain ⟨_, reached, obeyed, others⟩ := ok_of_bind done
      obtain ⟨next, same | ⟨rfl, ledger, leads, paper, sheet, beside, stage, history⟩⟩ :=
        underway.step recording obeyed
      · rw [← same]
        exact induction next others
      · -- What follows leaves the new entry alone, or makes paper again with an entry of its own.
        obtain ⟨ended, same | rewritten⟩ := induction next others
        · refine ⟨ended, .inr ⟨_, same.trans history, ?_⟩⟩
          exact underway.retells paper sheet leads next.folds beside stage others
        · exact ⟨ended, .inr rewritten⟩

end Session

end PaperFolding
