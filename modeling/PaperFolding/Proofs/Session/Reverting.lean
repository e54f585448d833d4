import PaperFolding.Proofs.Session.Clearing
import PaperFolding.Proofs.Session.Effective
import PaperFolding.Proofs.Session.Watching

/-!
Undoing a statement that folds once. The fold is one record and undoing takes back one record, so what was
creased for a fold that is restricted to a region stays.
-/

namespace PaperFolding

open Script

/-- What is recorded before a fold itself: a target is first creased along the plane. -/
def Stage.creases (stage : Stage) (plane : Plane) : List Record :=
  if stage.target.isSome then [⟨.crease, plane, none⟩] else []

theorem Stage.creases_eq_nil (stage : Stage) (plane : Plane) :
    stage.creases plane = [] ↔ stage.target = none := by
  cases held : stage.target <;> simp [creases, held]

namespace Session

variable {run : Command → List String → Action Unit} {scope : Scope} {row rest : List String}
  {token statement undoing word : String} {session after : Session} {command : Command}

/-! ## The only command of a row -/

/-- What is carried out in a row is its commands, one after the other. -/
theorem commands_of_ok (done : (obeyToken run scope token rest).on session = (.ok (), after)) :
    commands (token :: rest) =
      (deed? scope token session).toList.map Deed.command ++ commands rest := by
  rw [commands_cons]
  cases found : Keyword.ofWord? token with
  | none =>
      rw [deed?_eq_none (.inr fun _ same => by rw [found] at same; cases same)]
      rfl
  | some keyword =>
      cases keyword with
      | parameter parameter =>
          rw [deed?_eq_none (.inr fun _ same => by rw [found] at same; cases same)]
          rfl
      | command command =>
          rw [deed?_of_ok found done]
          rfl

theorem beside_of_no_commands (none : commands row = [])
    (done : (dispatch run scope row).on session = (.ok (), after)) :
    deedsAlong run scope row session = [] ∧ Beside session after := by
  induction row generalizing session with
  | nil =>
      cases done
      exact ⟨rfl, .refl _⟩
  | cons token rest induction =>
      obtain ⟨_, reached, obeyed, others⟩ := ok_of_bind done
      rw [commands_of_ok obeyed, List.append_eq_nil_iff] at none
      rcases deed?_cases obeyed with ⟨idle, beside, -⟩ | ⟨_, _, carried, -⟩
      · obtain ⟨silent, later⟩ := induction none.2 others
        rw [deedsAlong_of_ok obeyed, idle, silent]
        exact ⟨rfl, beside.trans later⟩
      · rw [carried] at none
        cases none.1

theorem only_of_dispatch (only : commands row = [command])
    (done : (dispatch run scope row).on session = (.ok (), after)) :
    ∃ deed, deedsAlong run scope row session = [deed] ∧ Beside session deed.session ∧
      ∃ rest reached, (run command rest).on deed.session = (.ok (), reached) ∧
        Beside reached after := by
  induction row generalizing session with
  | nil => cases only
  | cons token rest induction =>
      obtain ⟨_, reached, obeyed, others⟩ := ok_of_bind done
      rw [commands_of_ok obeyed] at only
      rcases deed?_cases obeyed with ⟨idle, beside, -⟩ | ⟨other, ended, carried, runs, beside, -⟩
      · rw [idle] at only
        obtain ⟨deed, found, before, carried⟩ := induction only others
        rw [deedsAlong_of_ok obeyed, idle, found]
        exact ⟨deed, rfl, beside.trans before, carried⟩
      · rw [carried] at only
        obtain ⟨rfl, none⟩ := List.cons.inj only
        obtain ⟨silent, later⟩ := beside_of_no_commands none others
        refine ⟨⟨other, session⟩, ?_, .refl session, rest, ended, runs, beside.trans later⟩
        rw [deedsAlong_of_ok obeyed, carried, silent]
        rfl

/-! ## What a fold records -/

theorem restriction_content {plane : Plane} {region : Option UInt64}
    (foldsPlainly : session.engine.FoldsPlainly)
    (done : (restriction word plane).on session = (.ok region, after)) :
    after.engine = session.engine ∧ after.model.map Ledger.content =
      session.model.map fun ledger =>
        (ledger.outline, ledger.journal ++ session.stage.creases plane) := by
  refine ⟨(restriction_frame done).engine, ?_⟩
  obtain ⟨_, _, got, done⟩ := ok_of_bind done
  cases got
  cases held : session.stage.target with
  | none =>
      rw [held] at done
      cases done
      simp only [Stage.creases, held, Option.isSome_none, Bool.false_eq_true, if_false,
        List.append_nil]
      rfl
  | some target =>
      rw [held] at done
      obtain ⟨_, creased, crease, done⟩ := ok_of_bind done
      obtain ⟨ledger, present, model⟩ := operate_model foldsPlainly crease
      have looks : ((regionAt word target).on creased).2.model = creased.model := by
        rw [on_regionAt]
        split <;> rfl
      rw [Action.on_map] at done
      obtain rfl := congrArg Prod.snd done
      simp only [Stage.creases, held, Option.isSome_some, if_true]
      rw [looks, model, present]
      rfl

theorem foldAlong_content {plane : Plane} {operation : Operation}
    (foldsPlainly : session.engine.FoldsPlainly)
    (done : (foldAlong word plane operation).on session = (.ok (), after)) :
    ∃ ledger record, session.model = some ledger ∧ after.model.map Ledger.content =
      some (ledger.outline, ledger.journal ++ session.stage.creases plane ++ [record]) := by
  obtain ⟨region, restricted, restricts, done⟩ := ok_of_bind done
  obtain ⟨engine, content⟩ := restriction_content foldsPlainly restricts
  obtain ⟨_, operated, operates, cleared⟩ := ok_of_bind done
  obtain ⟨folded, held, model⟩ := operate_model (engine ▸ foldsPlainly) operates
  cases cleared
  rw [held] at content
  obtain ⟨ledger, present, same⟩ := Option.map_eq_some_iff.1 content.symm
  obtain ⟨outline, journal⟩ := Prod.mk.inj same
  refine ⟨ledger, ⟨operation, plane, region⟩, present, ?_⟩
  show operated.model.map Ledger.content = _
  rw [model, outline, journal]
  rfl

/-! ## Undoing the fold -/

theorem undone_of_depth {ledger : Ledger} (plain : session.engine = .plain)
    (unstopped : session.world.watch.stopped = false) (held : session.model = some ledger)
    (more : 0 < ledger.depth) (reads : tokens undoing = [Command.undo.name]) :
    session.failure undoing = none ∧
      (session.executed undoing).model = some (ledger.windTo (ledger.depth - 1)) := by
  have entered : (session.enter undoing).engine = .plain := plain
  have free : (session.enter undoing).world.watch.stopped = false := unstopped
  have holds : (session.enter undoing).model = some ledger := held
  have runs : session.running undoing = (.ok (), (session.enter undoing).undone ledger) := by
    rw [running_of_word reads]
    exact on_obeyToken_undo_of_depth free entered holds more _ _ _ _
  obtain ⟨done, settled⟩ := success_of_running runs
  exact ⟨done, settled ▸ rfl⟩

/-- An `undo` behind a statement that folds once succeeds, and takes back what the statement has done to
the sheet exactly if no target was staged when it folded. What was creased for a target is kept. -/
theorem fold_undone (plain : session.engine = .plain) (unwatched : session.Unwatched)
    (only : commands (tokens statement) = [command]) (folds : command ∈ plainFolds)
    (done : session.failure statement = none) (reads : tokens undoing = [Command.undo.name]) :
    (session.executed statement).failure undoing = none ∧
      ∃ deed plane, session.deeds statement = [deed] ∧
        ((session.executed statement).executed undoing).model.map Ledger.content =
          session.model.map (fun ledger =>
            (ledger.outline, ledger.journal ++ deed.session.stage.creases plane)) ∧
        (((session.executed statement).executed undoing).model.map Ledger.content =
          session.model.map Ledger.content ↔ deed.session.stage.target = none) := by
  obtain ⟨after, runs, settled⟩ := running_of_success done
  obtain ⟨deed, found, before, rest, reached, obeyed, later⟩ := only_of_dispatch only runs
  obtain ⟨plane, operation, folded⟩ := foldAlong_of_obey folds obeyed
  have foldsPlainly : deed.session.engine.FoldsPlainly := by
    rw [before.engine]
    exact plain ▸ Engine.plain_foldsPlainly
  obtain ⟨ledger, record, present, content⟩ := foldAlong_content foldsPlainly folded
  have held : session.model = some ledger := before.model.symm.trans present
  rw [← later.model] at content
  obtain ⟨next, model, same⟩ := Option.map_eq_some_iff.1 content
  obtain ⟨outline, journal⟩ := Prod.mk.inj same
  have depth : next.depth - 1 = (ledger.journal ++ deed.session.stage.creases plane).length := by
    rw [Ledger.depth, journal]
    simp
  have more : 0 < next.depth := by
    rw [Ledger.depth, journal, List.length_append]
    exact Nat.succ_pos _
  have plain' : (session.executed statement).engine = .plain :=
    (executed_engine session statement).trans plain
  obtain ⟨undone, back⟩ := undone_of_depth plain' (unwatched.executed statement).unstopped
    (settled ▸ model) more reads
  have left : ((session.executed statement).executed undoing).model.map Ledger.content =
      some (ledger.outline, ledger.journal ++ deed.session.stage.creases plane) := by
    rw [back, Option.map_some, next.windTo_content (Nat.sub_le _ _), depth, journal, outline,
      List.take_left]
  refine ⟨undone, deed, plane, found, ?_, ?_⟩
  · rw [left, held]
    rfl
  · rw [left, held, ← deed.session.stage.creases_eq_nil plane]
    simp [Ledger.content]

def square : Session := fresh.executed "paper [square] new"

theorem fold_undone_square :
    commands (tokens "plane [1 0 0] [1 0 0] reflect") = [.reflect] ∧
      square.failure "plane [1 0 0] [1 0 0] reflect" = none ∧
      ((square.executed "plane [1 0 0] [1 0 0] reflect").executed
        "undo").model.map Ledger.content = square.model.map Ledger.content := by
  have plain : square.engine = .plain := executed_engine fresh _
  have unwatched : square.Unwatched :=
    (unwatched_ofSettings .standard .plain (.empty []) .absent).executed _
  have only : commands (tokens "plane [1 0 0] [1 0 0] reflect") = [.reflect] := by decide +kernel
  have done : square.failure "plane [1 0 0] [1 0 0] reflect" = none := by decide +kernel
  have reads : tokens "undo" = [Command.undo.name] := by decide +kernel
  obtain ⟨-, deed, plane, found, -, back⟩ :=
    fold_undone plain unwatched only (by decide) done reads
  have free : ∀ deed ∈ square.deeds "plane [1 0 0] [1 0 0] reflect",
      deed.session.stage.target = none := by decide +kernel
  exact ⟨only, done, back.2 (free deed (by simp [found]))⟩

/-- The crease that was made for the target is still there. -/
theorem targeted_fold_not_undone :
    commands (tokens "target [10 10] plane [1 0 0] [1 0 0] reflect") = [.reflect] ∧
      square.failure "target [10 10] plane [1 0 0] [1 0 0] reflect" = none ∧
      (square.executed "target [10 10] plane [1 0 0] [1 0 0] reflect").failure "undo" = none ∧
      ((square.executed "target [10 10] plane [1 0 0] [1 0 0] reflect").executed
        "undo").model.map Ledger.content ≠ square.model.map Ledger.content := by
  decide +kernel

end Session

end PaperFolding
