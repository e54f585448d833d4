import PaperFolding.Proofs.Session.Shaping

/-!
Histories of statements that make, fold and undo. At most the first entry makes a sheet. Doing such a
history again on whatever sheet there is comes to the same as executing it afresh exactly if it does.
-/

namespace PaperFolding

open Script

namespace Session

/-- A row that shapes the sheet there is. -/
structure Reworks (row : List String) : Prop where
  shapes : OnlyShapes row
  makesNone : Command.new.name ∉ row

/-- The row of a rewritten entry with what follows its construction. -/
def Rebuilds (row rest : List String) : Prop :=
  ∃ (staged : Session) (ledger : Ledger) (leads : List Lead),
    Ordinary staged ∧ staged.stage.Printable ∧ staged.stage.hasPaper = true ∧
      staged.stage.sheet = .ok ledger ∧
      row = leads.flatMap Lead.row ++
        (staged.stage.constructionRow ++ Command.new.name :: rest)

inductive Founded : List String → Prop where
  | loose {history : List String} (reworks : ∀ entry ∈ history, Reworks (tokens entry)) :
      Founded history
  | built {entry : String} {rest history : List String} (rebuilds : Rebuilds (tokens entry) rest)
      (goesOn : Reworks rest) (reworks : ∀ entry ∈ history, Reworks (tokens entry)) :
      Founded (entry :: history)

theorem Reworks.append {front back : List String} (reworks : Reworks front)
    (reworks' : Reworks back) : Reworks (front ++ back) where
  shapes := reworks.shapes.append reworks'.shapes
  makesNone among := (List.mem_append.1 among).elim reworks.makesNone reworks'.makesNone

theorem Rebuilds.mem_new {row rest : List String} (rebuilds : Rebuilds row rest) :
    Command.new.name ∈ row := by
  obtain ⟨staged, ledger, leads, -, -, -, -, rfl⟩ := rebuilds
  exact List.mem_append_right _ (List.mem_append_right _ (List.mem_cons_self ..))

theorem Founded.of_prefix {history part : List String} (founded : Founded history)
    (front : part <+: history) : Founded part := by
  cases founded with
  | loose reworks => exact .loose fun entry among => reworks entry (front.subset among)
  | built rebuilds goesOn reworks =>
      rcases List.prefix_cons_iff.1 front with rfl | ⟨part, rfl, shorter⟩
      · exact .loose fun entry among => absurd among List.not_mem_nil
      · exact .built rebuilds goesOn fun entry among => reworks entry (shorter.subset among)

theorem Founded.concat {history : List String} {entry : String} (founded : Founded history)
    (last : Reworks (tokens entry)) : Founded (history ++ [entry]) := by
  have extended {entries : List String} (reworks : ∀ entry ∈ entries, Reworks (tokens entry)) :
      ∀ other ∈ entries ++ [entry], Reworks (tokens other) :=
    List.forall_mem_append.2 ⟨reworks, List.forall_mem_singleton.2 last⟩
  cases founded with
  | loose reworks => exact .loose (extended reworks)
  | built rebuilds goesOn reworks => exact .built rebuilds goesOn (extended reworks)

section Replaying

variable {nested : Nested} {row rest entries : List String} {entry : String}
  {session first second after : Session}

theorem Rebuilds.twins (rebuilds : Rebuilds row rest) (named : misnamesFile row = false)
    (blank : Blank first) (plain : first.engine = .plain) (blank' : Blank second)
    (plain' : second.engine = .plain) (nested nested' : Nested)
    (takeBack takeBack' : List String → Action Unit) :
    ∃ made made', Twins made made' ∧ Reshaped first made ∧
      (dispatch (obey nested ⟨false, false⟩ takeBack) ⟨false, false⟩ row).on first =
        (dispatch (obey nested ⟨false, false⟩ takeBack) ⟨false, false⟩ rest).on made ∧
      (dispatch (obey nested' ⟨true, true⟩ takeBack') ⟨true, true⟩ row).on second =
        (dispatch (obey nested' ⟨true, true⟩ takeBack') ⟨true, true⟩ rest).on made' := by
  obtain ⟨staged, ledger, leads, ordinary, printable, paper, sheet, rfl⟩ := rebuilds
  obtain ⟨set, made, besideSet, besideMade, alike, runs⟩ :=
    on_dispatch_rebased ordinary paper sheet printable leads rest blank named nested ⟨true, true⟩
      ⟨false, false⟩ takeBack
  obtain ⟨set', made', besideSet', besideMade', alike', runs'⟩ :=
    on_dispatch_rebased ordinary paper sheet printable leads rest blank' named nested' ⟨true, true⟩
      ⟨true, true⟩ takeBack'
  have engine : made.engine = .plain := by
    rw [besideMade.engine, making_engine, besideSet.engine, plain]
  have engine' : made'.engine = .plain := by
    rw [besideMade'.engine, making_engine, besideSet'.engine, plain']
  refine ⟨made, made', ⟨⟨alike.ordinary', alike'.ordinary', ?_, ?_⟩, engine, engine'⟩,
    ⟨alike.ordinary', engine, ?_, fun _ => ?_⟩, runs, runs'⟩
  · exact alike.stage.symm.trans alike'.stage
  · exact alike.content.symm.trans alike'.content
  · rw [besideMade.history, making_history rfl, besideSet.history]
  · rw [besideMade.model, making_model]
    rfl

theorem Twins.enter (twins : Twins first second) (entry : String) :
    Twins first (second.enter entry) :=
  ⟨⟨twins.alike.ordinary, twins.alike.ordinary'.enter entry, twins.alike.stage,
    twins.alike.content⟩, twins.plain, twins.plain'⟩

theorem Twins.settle (twins : Twins first second) : Twins first second.settle :=
  ⟨⟨twins.alike.ordinary, twins.alike.ordinary'.settle, twins.alike.stage, twins.alike.content⟩,
    twins.plain, twins.plain'⟩

theorem Twins.executed (twins : Twins first second) (shapes : OnlyShapes (tokens entry))
    (done : (runBody nested false (tokens entry)).on first = (.ok (), after)) :
    second.failure entry = none ∧ Twins after (second.executed entry) := by
  obtain ⟨after', runs, next⟩ := (twins.enter entry).dispatch shapes done
  have ran : second.running entry = (.ok (), after') := runs
  obtain ⟨done', settled⟩ := success_of_running ran
  rw [settled]
  exact ⟨done', next.settle⟩

theorem Twins.executedAll (twins : Twins first second)
    (shapes : ∀ entry ∈ entries, OnlyShapes (tokens entry))
    (done : (entries.forM fun entry => runBody nested false (tokens entry)).on first =
      (.ok (), after)) :
    second.firstFailure entries = none ∧ Twins after (second.executedAll entries) := by
  induction entries generalizing first second with
  | nil =>
      cases done
      exact ⟨rfl, twins⟩
  | cons entry entries induction =>
      obtain ⟨here, later⟩ := List.forall_mem_cons.1 shapes
      rw [List.forM_eq_forM, List.forM_cons] at done
      obtain ⟨_, reached, ran, others⟩ := ok_of_bind done
      obtain ⟨done', next⟩ := twins.executed here ran
      obtain ⟨done'', last⟩ := induction next later others
      exact ⟨firstFailure_cons.2 ⟨done', done''⟩, last⟩

theorem reshaped_of_forM (ordinary : Ordinary session) (plain : session.engine = .plain)
    (shapes : ∀ entry ∈ entries, OnlyShapes (tokens entry))
    (done : (entries.forM fun entry => runBody nested false (tokens entry)).on session =
      (.ok (), after)) : Reshaped session after := by
  induction entries generalizing session with
  | nil =>
      cases done
      exact ⟨ordinary, plain, rfl, id⟩
  | cons entry entries induction =>
      obtain ⟨here, later⟩ := List.forall_mem_cons.1 shapes
      rw [List.forM_eq_forM, List.forM_cons] at done
      obtain ⟨_, reached, ran, others⟩ := ok_of_bind done
      have step := reshaped_of_dispatch ordinary plain rfl here ran
      exact step.trans (induction step.ordinary step.plain later others)

theorem Rebuilds.replays (rebuilds : Rebuilds (tokens entry) rest) (shapes : OnlyShapes rest)
    (blank : Blank first) (plain : first.engine = .plain) (blank' : Blank second)
    (plain' : second.engine = .plain)
    (done : (runBody nested false (tokens entry)).on first = (.ok (), after)) :
    Reshaped first after ∧ second.failure entry = none ∧ Twins after (second.executed entry) := by
  have named : misnamesFile (tokens entry) = false := misnamesFile_of_dispatch done
  have entered : Blank (second.enter entry) := ⟨blank'.ordinary.enter entry, blank'.stage⟩
  obtain ⟨made, made', twins, reshaped, runs, runs'⟩ :=
    rebuilds.twins named blank plain entered plain' nested (.ofDepth second.nestingBound)
      (fun _ => throw (.missing .undoableFold))
      (replayUndo (.ofDepth second.nestingBound) true 1)
  have goesOn := runs.symm.trans done
  obtain ⟨ended, goesOn', last⟩ := twins.dispatch shapes goesOn
  have ran : second.running entry = (.ok (), ended) := runs'.trans goesOn'
  obtain ⟨done', settled⟩ := success_of_running ran
  refine ⟨reshaped.trans ?_, done', ?_⟩
  · exact reshaped_of_dispatch reshaped.ordinary reshaped.plain rfl shapes goesOn
  · rw [settled]
    exact last.settle

/-- A history that has been done again makes the same in any blank session, if an entry makes a sheet. -/
theorem Founded.replays (founded : Founded entries) (blank : Blank first)
    (plain : first.engine = .plain)
    (done : (entries.forM fun entry => runBody nested false (tokens entry)).on first =
      (.ok (), after)) :
    Reshaped first after ∧
      ((∃ entry ∈ entries, Command.new.name ∈ tokens entry) → ∀ second, Blank second →
        second.engine = .plain →
          second.firstFailure entries = none ∧ Twins after (second.executedAll entries)) := by
  cases founded with
  | loose reworks =>
      refine ⟨reshaped_of_forM blank.ordinary plain (fun entry among => (reworks entry among).shapes)
        done, ?_⟩
      rintro ⟨entry, among, makes⟩
      exact absurd makes (reworks entry among).makesNone
  | @built entry rest history rebuilds goesOn reworks =>
      have shapes (entry : String) (among : entry ∈ history) : OnlyShapes (tokens entry) :=
        (reworks entry among).shapes
      rw [List.forM_eq_forM, List.forM_cons] at done
      obtain ⟨_, reached, ran, others⟩ := ok_of_bind done
      obtain ⟨reshaped, -⟩ := rebuilds.replays goesOn.shapes blank plain blank plain ran
      refine ⟨reshaped.trans (reshaped_of_forM reshaped.ordinary reshaped.plain shapes others), ?_⟩
      intro _ second blank' plain'
      obtain ⟨-, done', twins⟩ := rebuilds.replays goesOn.shapes blank plain blank' plain' ran
      obtain ⟨done'', last⟩ := twins.executedAll shapes others
      exact ⟨firstFailure_cons.2 ⟨done', done''⟩, last⟩

end Replaying

/-! ## Histories without a sheet -/

section Paperless

variable {run : Command → List String → Action Unit} {scope : Scope} {token entry : String}
  {rest row entries : List String} {session after : Session}

theorem none_of_dispatch (reworks : Reworks row) (none : session.model = none)
    (done : (dispatch run scope row).on session = (.ok (), after)) : after.model = .none := by
  induction row generalizing session with
  | nil =>
      cases done
      exact none
  | cons token rest induction =>
      obtain ⟨_, reached, obeyed, others⟩ := ok_of_bind done
      have later : Reworks rest :=
        ⟨fun word among => reworks.shapes word (List.mem_cons_of_mem token among),
          fun among => reworks.makesNone (List.mem_cons_of_mem token among)⟩
      refine induction later ?_ others
      rcases obeyToken_cases obeyed with ⟨rfl, -⟩ | ⟨parameter, setting, found, reads, ends⟩ |
        ⟨command, ran, found, -⟩
      · exact none
      · rw [(beside_setting ends).1.model, none]
      · obtain rfl : command.name = token := Keyword.name_of_ofWord? found
        have other : command ≠ .new := by
          rintro rfl
          exact reworks.makesNone (List.mem_cons_self ..)
        have needs : ∀ command ∈ shapingCommands, command ≠ .new → command.needsPaper = true := by
          decide
        have present := present_of_command
          (needs command (reworks.shapes _ (List.mem_cons_self ..) command found) other) obeyed
        rw [none] at present
        cases present

theorem none_of_executed (reworks : Reworks (tokens entry)) (none : session.model = none) :
    (session.executed entry).model = .none := by
  cases ends : session.failure entry with
  | some fault => exact executed_failure_model_none ends none
  | none =>
      obtain ⟨after, runs, settled⟩ := running_of_success ends
      rw [settled]
      show after.model = .none
      have entered : (session.enter entry).model = .none := none
      exact none_of_dispatch reworks entered runs

theorem none_of_executedAll (reworks : ∀ entry ∈ entries, Reworks (tokens entry))
    (none : session.model = none) : (session.executedAll entries).model = .none := by
  induction entries generalizing session with
  | nil => exact none
  | cons entry entries induction =>
      obtain ⟨here, later⟩ := List.forall_mem_cons.1 reworks
      rw [executedAll_cons]
      exact induction later (none_of_executed here none)

theorem Founded.none (founded : Founded entries)
    (makesNone : ¬ ∃ entry ∈ entries, Command.new.name ∈ tokens entry)
    (none : session.model = none) : (session.executedAll entries).model = .none := by
  cases founded with
  | loose reworks => exact none_of_executedAll reworks none
  | built rebuilds goesOn reworks =>
      exact absurd ⟨_, List.mem_cons_self .., rebuilds.mem_new⟩ makesNone

end Paperless

end Session

end PaperFolding
