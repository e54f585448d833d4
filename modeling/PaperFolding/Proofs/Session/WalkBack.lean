import PaperFolding.Proofs.Session.UndoReplay

/-!
The walk back over a history of folds, undoes and redoes. The journal is a stack: the walk ends where the
journal was last as short as the debt asks for, and doing the history up to there again gives it back.
-/

namespace PaperFolding

open Script

namespace Session

/-! ## Trails of ledgers -/

/-- How a statement changes the ledger, and what its entry counts for on the way back. -/
inductive Moves (statement : String) (ledger : Ledger) : Ledger → Prop where
  | adds {next : Ledger} {record : Record} (leads : Leads statement ledger next)
      (other : undoCount? statement = none) (outline : next.outline = ledger.outline)
      (journal : next.journal = ledger.journal ++ [record]) : Moves statement ledger next
  | undoes (count : Nat)
      (leads : Leads statement ledger (ledger.windTo (ledger.depth - (count + 1))))
      (undoes : undoCount? statement = some (count + 1)) (enough : count < ledger.depth) :
      Moves statement ledger (ledger.windTo (ledger.depth - (count + 1)))

inductive Trail (base : Ledger) : List String → Ledger → Prop where
  | start : Trail base [] base
  | step {statements : List String} {statement : String} {ledger next : Ledger}
      (earlier : Trail base statements ledger) (moves : Moves statement ledger next) :
      Trail base (statements ++ [statement]) next

/-- The number of records after statements that each add one or undo some. -/
def depthAfter (statements : List String) : Nat :=
  statements.foldl (fun depth statement =>
    match undoCount? statement with
    | some count => depth - count
    | none => depth + 1) 0

theorem depthAfter_concat (statements : List String) (statement : String) :
    depthAfter (statements ++ [statement]) =
      match undoCount? statement with
      | some count => depthAfter statements - count
      | none => depthAfter statements + 1 := by
  rw [depthAfter, List.foldl_append]
  rfl

section Moving

variable {statement : String} {ledger next : Ledger}

theorem Moves.leads (moves : Moves statement ledger next) : Leads statement ledger next := by
  cases moves with
  | adds leads => exact leads
  | undoes count leads => exact leads

theorem Moves.depth (moves : Moves statement ledger next) :
    next.depth = match undoCount? statement with
      | some count => ledger.depth - count
      | none => ledger.depth + 1 := by
  cases moves with
  | adds leads other outline journal =>
      rw [other, Ledger.depth, journal, List.length_append]
      rfl
  | undoes count leads undoes enough => rw [undoes, ledger.depth_windTo (Nat.sub_le _ _)]

end Moving

theorem Trail.depth_eq {base ledger : Ledger} {statements : List String} (bare : base.journal = [])
    (trail : Trail base statements ledger) : ledger.depth = depthAfter statements := by
  induction trail with
  | start =>
      rw [Ledger.depth, bare]
      rfl
  | @step statements statement ledger next earlier moves induction =>
      rw [depthAfter_concat, ← induction]
      exact moves.depth

theorem Trail.executed {base ledger : Ledger} {statements : List String} {first : Session}
    (holds : Holds first base) (trail : Trail base statements ledger) :
    Holds (first.executedAll statements) ledger ∧
      (first.executedAll statements).history = first.history ++ statements := by
  induction trail with
  | start => exact ⟨holds, (List.append_nil _).symm⟩
  | @step statements statement ledger next earlier moves induction =>
      obtain ⟨before, history⟩ := induction
      obtain ⟨-, after, history'⟩ := moves.leads.executed before
      rw [executedAll_append, executedAll_cons, executedAll, List.foldl_nil]
      exact ⟨after, by rw [history', history, List.append_assoc]⟩

/-! ## The walk back -/

/-- The walk back comes to the end of a part of the statements, the longest one after which there were no
more than so many records. -/
structure ComesTo (base : Ledger) (entry : String) (statements : List String) (owed : Nat)
    (outline : Outline) (records : List Record) (part : List String) (left : Ledger) : Prop where
  front : part <+: statements
  trail : Trail base part left
  content : left.content = (outline, records)
  drops : dropOwed (entry :: statements).reverse owed = (entry :: part).reverse
  last : ∀ longer, longer <+: statements → part.length < longer.length →
    records.length < depthAfter longer

section WalkingBack

variable {base ledger : Ledger} {entry statement : String} {statements part : List String}
  {outline : Outline} {records : List Record} {left : Ledger}

theorem reverse_cons_concat (entry : String) (statements : List String) (statement : String) :
    (entry :: (statements ++ [statement])).reverse =
      statement :: (entry :: statements).reverse := by
  simp

theorem ComesTo.whole (trail : Trail base statements ledger) :
    ComesTo base entry statements 0 ledger.outline ledger.journal statements ledger where
  front := List.prefix_rfl
  trail := trail
  content := rfl
  drops := dropOwed_zero _
  last _ front more := absurd front.length_le (Nat.not_le_of_gt more)

theorem ComesTo.past {owed debt : Nat}
    (comes : ComesTo base entry statements debt outline records part left)
    (drops : dropOwed (statement :: (entry :: statements).reverse) owed =
      dropOwed (entry :: statements).reverse debt)
    (longer : records.length < depthAfter (statements ++ [statement])) :
    ComesTo base entry (statements ++ [statement]) owed outline records part left where
  front := comes.front.trans (List.prefix_append _ _)
  trail := comes.trail
  content := comes.content
  drops := by rw [reverse_cons_concat, drops, comes.drops]
  last := by
    intro other inside more
    rcases List.prefix_concat_iff.1 inside with rfl | shorter
    · exact longer
    · exact comes.last other shorter more

theorem Trail.walkBack (bare : base.journal = []) (entry : String)
    (trail : Trail base statements ledger) (owed : Nat) (enough : owed ≤ ledger.depth) :
    ∃ part left, ComesTo base entry statements owed ledger.outline
      (ledger.journal.take (ledger.depth - owed)) part left := by
  induction trail generalizing owed with
  | start =>
      obtain rfl : owed = 0 := by
        rw [Ledger.depth, bare] at enough
        exact Nat.le_zero.1 enough
      refine ⟨[], base, ?_⟩
      rw [Nat.sub_zero, Ledger.depth, List.take_length]
      exact .whole .start
  | @step statements statement ledger next earlier moves induction =>
      have whole : Trail base (statements ++ [statement]) next := earlier.step moves
      cases owed with
      | zero =>
          refine ⟨statements ++ [statement], next, ?_⟩
          rw [Nat.sub_zero, Ledger.depth, List.take_length]
          exact .whole whole
      | succ owed =>
          have shorter : (next.journal.take (next.depth - (owed + 1))).length <
              depthAfter (statements ++ [statement]) := by
            rw [← whole.depth_eq bare]
            exact Nat.lt_of_le_of_lt (List.length_take_le _ _) (by omega)
          have depth := moves.depth
          cases moves with
          | @adds _ record leads other outline journal =>
              rw [other] at depth
              have depth : next.depth = ledger.depth + 1 := depth
              obtain ⟨part, left, comes⟩ := induction owed (by omega)
              have left_over : next.journal.take (next.depth - (owed + 1)) =
                  ledger.journal.take (ledger.depth - owed) := by
                have inside : ledger.depth - owed ≤ ledger.journal.length := Nat.sub_le _ _
                rw [depth, Nat.add_sub_add_right, journal, List.take_append_of_le_length inside]
              rw [left_over] at shorter ⊢
              rw [outline]
              refine ⟨part, left, comes.past ?_ shorter⟩
              rw [dropOwed, other]
          | @undoes count leads undoes fewer =>
              have depth := ledger.depth_windTo (Nat.sub_le ledger.depth (count + 1))
              -- What was undone is owed as well, to entries from before.
              obtain ⟨part, left, comes⟩ := induction (owed + 1 + (count + 1)) (by omega)
              have left_over : (ledger.windTo (ledger.depth - (count + 1))).journal.take
                  ((ledger.windTo (ledger.depth - (count + 1))).depth - (owed + 1)) =
                  ledger.journal.take (ledger.depth - (owed + 1 + (count + 1))) := by
                rw [depth, ledger.windTo_journal (Nat.sub_le _ _), List.take_take]
                congr 1
                omega
              rw [left_over] at shorter ⊢
              refine ⟨part, left, comes.past ?_ shorter⟩
              rw [dropOwed, undoes]

/-- More is owed than was ever recorded: the walk back goes over the first entry too. -/
theorem Trail.walkBack_all (entry : String)
    (trail : Trail base statements ledger) {owed : Nat} (beyond : ledger.depth < owed) :
    dropOwed (entry :: statements).reverse owed = [] := by
  induction trail generalizing owed with
  | start =>
      obtain ⟨owed, rfl⟩ := Nat.exists_eq_succ_of_ne_zero (Nat.ne_zero_of_lt beyond)
      rw [List.reverse_singleton, dropOwed]
      split <;> rfl
  | @step statements statement ledger next earlier moves induction =>
      obtain ⟨owed, rfl⟩ := Nat.exists_eq_succ_of_ne_zero (Nat.ne_zero_of_lt beyond)
      rw [moves.depth] at beyond
      rw [reverse_cons_concat, dropOwed]
      cases counts : undoCount? statement with
      | some count =>
          rw [counts] at beyond
          have beyond : ledger.depth - count < owed + 1 := beyond
          exact induction (by omega)
      | none =>
          rw [counts] at beyond
          have beyond : ledger.depth + 1 < owed + 1 := beyond
          exact induction (by omega)

end WalkingBack

/-! ## Starting over -/

section StartingOver

variable {session : Session}

theorem Trail.replays {base ledger : Ledger} {entry : String} {statements : List String}
    (trail : Trail base statements ledger) (makes : Makes entry base) (blank : Blank session)
    (plain : session.engine = .plain) (nested : Nested) :
    ∃ after,
      ((entry :: statements).forM fun entry => runBody nested false (tokens entry)).on session =
        (.ok (), after) ∧
      Holds after ledger ∧ after.history = session.history := by
  induction trail with
  | start =>
      obtain ⟨after, runs, brought⟩ := makes session blank nested fun _ =>
        throw (.missing .undoableFold)
      refine ⟨after, on_forM_singleton runs, ?_, brought.history⟩
      exact ⟨brought.ordinary, brought.engine.trans plain, brought.free, brought.model⟩
  | @step statements statement ledger next earlier moves induction =>
      obtain ⟨middle, before, holds, history⟩ := induction
      obtain ⟨after, runs, reached, history'⟩ := moves.leads middle holds nested ⟨false, false⟩
        fun _ => throw (.missing .undoableFold)
      exact ⟨after, on_forM_concat before runs, reached, history'.trans history⟩

theorem Trail.replay {base ledger : Ledger} {entry : String} {statements : List String}
    (trail : Trail base statements ledger) (makes : Makes entry base) (blank : Blank session)
    (plain : session.engine = .plain) (history : session.history = entry :: statements)
    (nested : Nested) :
    ∃ after, (replay nested).on session = (.ok (), after) ∧ Holds after ledger ∧
      after.history = entry :: statements := by
  obtain ⟨after, runs, holds, same⟩ := trail.replays makes (blank.withAccess .dev) plain nested
  rw [← history] at runs
  exact ⟨_, on_replay_of runs, holds.withAccess session.access, same.trans history⟩

end StartingOver

/-! ## Whole runs -/

/-- Statements that each fold once, undo no more than the folds in effect, or redo one. -/
inductive Works (first : Session) : List String → Prop where
  | start : Works first []
  | fold {statements : List String} {statement : String} {command : Command}
      {before after : List String} (earlier : Works first statements)
      (once : FoldsOnce command before after)
      (reads : tokens statement = before ++ command.name :: after)
      (done : (first.executedAll statements).failure statement = none) :
      Works first (statements ++ [statement])
  | redo {statements : List String} {statement : String} (earlier : Works first statements)
      (reads : tokens statement = [Command.redo.name])
      (done : (first.executedAll statements).failure statement = none) :
      Works first (statements ++ [statement])
  | undo {statements : List String} {statement : String} (count : Nat)
      (earlier : Works first statements)
      (reads : tokens statement = List.replicate (count + 1) Command.undo.name)
      (enough : ∃ ledger ∈ (first.executedAll statements).model, count < ledger.journal.length) :
      Works first (statements ++ [statement])

theorem Works.of_prefix {first : Session} {statements part : List String}
    (works : Works first statements) (front : part <+: statements) : Works first part := by
  induction works with
  | start =>
      rw [List.prefix_nil.1 front]
      exact .start
  | fold earlier once reads done induction =>
      rcases List.prefix_concat_iff.1 front with rfl | shorter
      · exact earlier.fold once reads done
      · exact induction shorter
  | redo earlier reads done induction =>
      rcases List.prefix_concat_iff.1 front with rfl | shorter
      · exact earlier.redo reads done
      · exact induction shorter
  | undo count earlier reads enough induction =>
      rcases List.prefix_concat_iff.1 front with rfl | shorter
      · exact .undo count earlier reads enough
      · exact induction shorter

theorem Works.trail {first : Session} {base : Ledger} {statements : List String}
    (works : Works first statements) (holds : Holds first base) :
    ∃ ledger, Trail base statements ledger := by
  induction works with
  | start => exact ⟨base, .start⟩
  | @fold statements statement command before after earlier once reads done induction =>
      obtain ⟨ledger, trail⟩ := induction
      obtain ⟨record, leads⟩ := leads_of_fold once reads (trail.executed holds).1 done
      exact ⟨_, trail.step (.adds leads (undoCount?_of_fold once.folds reads) rfl rfl)⟩
  | @redo statements statement earlier reads done induction =>
      obtain ⟨ledger, trail⟩ := induction
      obtain ⟨ended, runs, -⟩ := running_of_success done
      rw [running, runRecorded, reads] at runs
      obtain ⟨next, again⟩ := ((trail.executed holds).1.enter statement).redo_of_ok runs
      obtain ⟨record, journal⟩ := Ledger.redo_journal again
      exact ⟨next, trail.step (.adds (leads_of_redo reads again) (undoCount?_of_redo reads)
        (Ledger.redo_outline again) journal)⟩
  | @undo statements statement count earlier reads enough induction =>
      obtain ⟨ledger, trail⟩ := induction
      obtain ⟨same, held, enough⟩ := enough
      rw [Option.mem_def, (trail.executed holds).1.model] at held
      cases held
      exact ⟨_, trail.step (.undoes count (leads_of_undoes _ reads enough) (undoCount?_of_undoes reads)
        enough)⟩

theorem on_takeBack {session after : Session} {steps : Nat}
    (runs : (replay (.ofDepth session.nestingBound)).on (session.shortening false steps) =
      (.ok (), after)) : (takeBack steps).on session = (.ok (), after) := by
  rw [takeBack, Action.on_of, on_replayUndo [] runs]
  rfl

/-- A fresh session and a statement that makes its first sheet. -/
structure Opens (start : Session) (first : String) : Prop where
  fresh : ∃ settings files operator, start = ofSettings settings .plain (.quiet files operator)
  sheets : ∃ front, OnlySheets front ∧ tokens first = front ++ [Command.new.name]
  corners : ∀ corner ∈ stagedCorners (tokens first), corner.Printable
  done : start.failure first = none

theorem Opens.opened {start : Session} {first : String} (opens : Opens start first) :
    ∃ entry base, Opened (start.executed first) entry base ∧ Holds (start.executed first) base := by
  obtain ⟨settings, files, operator, rfl⟩ := opens.fresh
  obtain ⟨front, sheets, reads⟩ := opens.sheets
  have paperless := paperless_ofSettings Engine.plain_foldsPlainly settings files operator
  obtain ⟨entry, base, opened⟩ :=
    opened_of_success paperless.toBlank sheets reads opens.corners opens.done
  exact ⟨entry, base, opened, opened.ordinary, executed_engine _ first, opened.free, opened.model⟩

section Working

variable {start : Session} {first : String} {statements : List String} {ledger : Ledger}

theorem Opens.works (opens : Opens start first) (works : Works (start.executed first) statements) :
    ∃ entry base, Makes entry base ∧ base.journal = [] ∧
      ∀ part, part <+: statements → ∃ ledger, Trail base part ledger ∧
        Holds (start.executedAll (first :: part)) ledger ∧
        (start.executedAll (first :: part)).history = entry :: part := by
  obtain ⟨entry, base, opened, holds⟩ := opens.opened
  refine ⟨entry, base, opened.makes, opened.bare, fun part front => ?_⟩
  obtain ⟨ledger, trail⟩ := (works.of_prefix front).trail holds
  obtain ⟨reached, history⟩ := trail.executed holds
  rw [executedAll_cons]
  exact ⟨ledger, trail, reached, by rw [history, opened.history, List.singleton_append]⟩

/-- Taking one step back leaves the journal that undoing would leave, and as history the longest part of
it after which the journal was that short. -/
theorem takeBack_walks_back (opens : Opens start first)
    (works : Works (start.executed first) statements)
    (held : ledger ∈ (start.executedAll (first :: statements)).model)
    (more : 0 < ledger.depth) :
    ∃ part after undone, part <+: statements ∧
      (takeBack 1).on (start.executedAll (first :: statements)) = (.ok (), after) ∧
      ledger.undo = .ok undone ∧
      undone.journal = ledger.journal.take (ledger.depth - 1) ∧
      after.model.map Ledger.content = some undone.content ∧
      after.history = (start.executedAll (first :: part)).history ∧
      after.history <+: (start.executedAll (first :: statements)).history ∧
      (start.executedAll (first :: part)).model.map Ledger.depth = some (ledger.depth - 1) ∧
      ∀ longer, longer <+: statements →
        (start.executedAll (first :: longer)).model.map Ledger.depth = some (ledger.depth - 1) →
        longer.length ≤ part.length := by
  obtain ⟨entry, base, makes, bare, worked⟩ := opens.works works
  obtain ⟨same, trail, holds, history⟩ := worked statements List.prefix_rfl
  rw [Option.mem_def, holds.model] at held
  cases held
  obtain ⟨part, left, comes⟩ := trail.walkBack bare entry 1 more
  obtain ⟨same, trail', holds', history'⟩ := worked part comes.front
  obtain ⟨outline, journal⟩ := Prod.mk.inj comes.content
  have depth : left.depth = ledger.depth - 1 := by
    rw [Ledger.depth, journal, ledger.length_take_journal (Nat.sub_le _ _)]
  have depth' : same.depth = ledger.depth - 1 := by
    rw [trail'.depth_eq bare, ← comes.trail.depth_eq bare, depth]
  have shortened : ((start.executedAll (first :: statements)).shortening false 1).history =
      entry :: part := by
    rw [shortening_history, history, shortenedHistory, Bool.false_and, if_neg Bool.false_ne_true,
      comes.drops, List.reverse_reverse]
  obtain ⟨after, runs, reached, kept⟩ :=
    comes.trail.replay makes (blank_shortening holds.ordinary)
      (shortening_engine.trans holds.plain) shortened
      (.ofDepth (start.executedAll (first :: statements)).nestingBound)
  refine ⟨part, after, ledger.windTo (ledger.depth - 1), comes.front, on_takeBack runs,
    ledger.undo_of_depth more, ledger.windTo_journal (Nat.sub_le _ _), ?_, kept.trans history'.symm,
    ?_, ?_, ?_⟩
  · rw [reached.model, Option.map_some, comes.content, ledger.windTo_content (Nat.sub_le _ _)]
  · rw [kept, history]
    exact (List.prefix_cons_inj entry).2 comes.front
  · rw [holds'.model, Option.map_some, depth']
  · intro longer front short
    obtain ⟨other, trail'', holds'', -⟩ := worked longer front
    rw [holds''.model, Option.map_some, Option.some_inj, trail''.depth_eq bare] at short
    by_contra beyond
    have above := comes.last longer front (Nat.lt_of_not_le beyond)
    rw [short, ← journal, ← Ledger.depth, depth] at above
    exact Nat.lt_irrefl _ above

end Working

def working : List String :=
  ["plane [1 0 0] [1 0 0] reflect", "planepoint [3 0 0] planenormal [1 1 0] cut", "undo", "redo",
    "undo"]

theorem opens_square : Opens fresh "paper [square] new" where
  fresh := ⟨_, _, _, rfl⟩
  sheets := ⟨["paper", "[square]"], by decide +kernel, by decide +kernel⟩
  corners := by decide +kernel
  done := by decide +kernel

theorem works_working : Works (fresh.executed "paper [square] new") working := by
  have reflects : FoldsOnce .reflect ["plane", "[1|0|0]", "[1|0|0]"] [] :=
    ⟨by decide, by decide +kernel, by decide, by decide +kernel, by decide +kernel, nofun⟩
  have cuts : FoldsOnce .cut ["planepoint", "[3|0|0]", "planenormal", "[1|1|0]"] [] :=
    ⟨by decide, by decide +kernel, by decide, by decide +kernel, by decide +kernel, nofun⟩
  refine .undo 0 (.redo (.undo 0 (.fold (.fold .start reflects ?_ ?_) cuts ?_ ?_) ?_ ?_) ?_ ?_)
    ?_ ?_
  all_goals decide +kernel

/-- The two entries that undo are paid for by the one that redoes and the one that cuts. -/
theorem takeBack_walks_back_working :
    ∃ part after, part <+: working ∧
      (takeBack 1).on (fresh.executedAll ("paper [square] new" :: working)) = (.ok (), after) ∧
      after.history = (fresh.executedAll ("paper [square] new" :: part)).history ∧
      after.history <+: "paper [square] new" :: working := by
  have history : (fresh.executedAll ("paper [square] new" :: working)).history =
      "paper [square] new" :: working := by
    decide +kernel
  obtain ⟨ledger, held, more⟩ : ∃ ledger ∈
      (fresh.executedAll ("paper [square] new" :: working)).model, 0 < ledger.depth := by
    decide +kernel
  obtain ⟨part, after, -, front, taken, -, -, -, same, shorter, -⟩ :=
    takeBack_walks_back opens_square works_working held more
  exact ⟨part, after, front, taken, same, history ▸ shorter⟩

end Session

end PaperFolding
