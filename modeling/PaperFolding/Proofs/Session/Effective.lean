import Mathlib.Data.List.Infix
import PaperFolding.Proofs.Session.HistoryShape
import PaperFolding.Proofs.Session.Shaping

/-!
Histories that are paid for by the records. Once the records are all undone, the walk back goes over the
whole of such a history, and no fold comes back. Statements that record something or take it back keep
the history paid for; those that only color or stage pay as well, but record nothing.
-/

namespace PaperFolding

open Script

namespace Session

/-! ## Histories that are paid for -/

/-- Behind whatever front of the history, no more entries pay than there are records and were undone. -/
def PaidFor (history : List String) (records : Nat) : Prop :=
  ∀ front back, history = front ++ back → front ≠ [] → paid back ≤ records + undoneBy back

theorem paidFor_iff {history : List String} {records : Nat} :
    PaidFor history records ↔ ∀ back ∈ history.tail.tails, paid back ≤ records + undoneBy back := by
  simp only [List.mem_tails]
  constructor
  · rintro paidFor back ⟨front, split⟩
    cases history with
    | nil =>
        obtain ⟨-, rfl⟩ := List.append_eq_nil_iff.1 split
        exact Nat.zero_le _
    | cons entry history =>
        refine paidFor (entry :: front) back ?_ (List.cons_ne_nil entry front)
        exact congrArg (entry :: ·) split.symm
  · rintro pays (_ | ⟨entry, front⟩) back rfl begun
    · exact absurd rfl begun
    · exact pays back (List.suffix_append front back)

instance (history : List String) (records : Nat) : Decidable (PaidFor history records) :=
  decidable_of_iff' _ paidFor_iff

namespace PaidFor

variable {history kept : List String} {entry : String} {fewer records : Nat}

theorem of_length_le (short : history.length ≤ 1) : PaidFor history records := by
  intro front back split more
  have whole := congrArg List.length split
  have begun := List.length_pos_iff.2 more
  rw [List.length_append] at whole
  obtain rfl : back = [] := List.eq_nil_of_length_eq_zero (by omega)
  exact Nat.zero_le _

theorem trim (paidFor : PaidFor history records) (trims : Trims history kept) :
    PaidFor kept records := by
  rcases trims with rfl | ⟨dropped, rfl, pays⟩
  · exact of_length_le (Nat.zero_le 1)
  · rintro front back rfl more
    have behind := paidFor front (back ++ dropped) (List.append_assoc front back dropped) more
    rw [paid_append, undoneBy_append] at behind
    omega

theorem mono (paidFor : PaidFor history fewer) (more : fewer ≤ records) :
    PaidFor history records := by
  intro front back split begun
  have behind := paidFor front back split begun
  omega

/-- An entry that pays takes a record more; one that undoes may take back as many as it has words. -/
theorem concat (paidFor : PaidFor history fewer)
    (pays : paid [entry] + fewer ≤ records + undoneBy [entry]) :
    PaidFor (history ++ [entry]) records := by
  intro front back split begun
  rcases List.eq_nil_or_concat back with rfl | ⟨earlier, last, rfl⟩
  · exact Nat.zero_le _
  · rw [List.concat_eq_append, ← List.append_assoc] at split
    obtain ⟨rfl, same⟩ := List.append_inj' split rfl
    obtain rfl := List.singleton_inj.1 same
    have behind := paidFor front earlier rfl begun
    rw [List.concat_eq_append, paid_append, undoneBy_append]
    omega

theorem dropOwed (paidFor : PaidFor history 0) {owed : Nat} (owes : 0 < owed) :
    dropOwed history.reverse owed = [] := by
  obtain ⟨dropped, split, gone | pays⟩ := dropOwed_cases history.reverse owed
  · exact gone
  · by_contra left
    have behind := paidFor (Session.dropOwed history.reverse owed).reverse dropped.reverse
      (by rw [← List.reverse_append, ← split, List.reverse_reverse])
      (fun none => left (List.reverse_eq_nil_iff.1 none))
    rw [paid_reverse, undoneBy_reverse] at behind
    omega

end PaidFor

/-! ## Statements that only undo -/

/-- The number of records that the engine can undo. -/
def records (session : Session) : Nat := session.depth.getD 0

section Undoing

variable {nested : Nested} {scope : Scope} {takeBack : List String → Action Unit} {count : Nat}
  {rest : List String} {session after : Session} {ledger : Ledger} {statement : String}

theorem records_eq (plain : session.engine = .plain) (held : session.model = some ledger) :
    session.records = ledger.depth := by
  rw [records, depth, held, plain]
  rfl

theorem undoes_of_ok (plain : session.engine = .plain) (held : session.model = some ledger)
    (enough : count ≤ ledger.depth)
    (done : (dispatch (obey nested scope takeBack) scope
        (List.replicate count Command.undo.name)).on session = (.ok (), after)) :
    after.model = some (ledger.windTo (ledger.depth - count)) ∧ Untold session after := by
  induction count generalizing session ledger with
  | zero =>
      cases done
      refine ⟨?_, rfl, rfl, rfl⟩
      rw [Nat.sub_zero, ledger.windTo_depth]
      exact held
  | succ count induction =>
      obtain ⟨_, reached, obeyed, others⟩ := ok_of_bind done
      obtain ⟨same, holds, ⟨more, rfl⟩ | ⟨none, -⟩⟩ := undo_cases plain obeyed
      · rw [held] at holds
        cases holds
        have depth : (ledger.windTo (ledger.depth - 1)).depth = ledger.depth - 1 :=
          ledger.depth_windTo (Nat.sub_le _ _)
        have next : (session.undone ledger).engine = .plain := plain
        obtain ⟨model, untold⟩ := induction next rfl (by rw [depth]; omega) others
        refine ⟨?_, untold.engine, untold.history, untold.draft⟩
        rw [model, depth, ledger.windTo_windTo, Nat.sub_sub, Nat.add_comm 1 count]
      · rw [held] at holds
        cases holds
        omega

/-- There is nothing to undo, and the walk back would leave nothing to do again. -/
structure Spent (session : Session) : Prop where
  plain : session.engine = .plain
  bare : session.records = 0
  drops : (session.shortening true 1).history = []

/-- What follows in the statement becomes the only entry, which the walk back drops first. -/
theorem spent_resuming (plain : session.engine = .plain) (bare : session.records = 0)
    (empty : session.history = []) (rest : List String) :
    Spent { session.resuming true rest with stage := .empty } ∧
      (session.resuming true rest).history.length ≤ 1 ∧
      (session.resuming true rest).model = session.model := by
  rcases resuming_cases rest session with ends | resumes
  · rw [ends]
    refine ⟨⟨plain, bare, ?_⟩, ?_, rfl⟩
    · rw [shortening_history]
      show shortenedHistory session.draft true 1 session.history = []
      rw [empty, shortenedHistory]
      split <;> rfl
    · rw [empty]
      exact Nat.zero_le 1
  · rw [resumes]
    refine ⟨⟨plain, bare, ?_⟩, ?_, rfl⟩
    · rw [shortening_history]
      show shortenedHistory ⟨true, false, []⟩ true 1 (session.history ++ [restore rest]) = []
      rw [empty]
      rfl
    · show (session.history ++ [restore rest]).length ≤ 1
      rw [empty]
      exact Nat.le_refl 1

theorem Spent.undone (spent : Spent session)
    (done : (obeyToken (obey nested scope (replayUndo nested true 1)) scope Command.undo.name
        rest).on session = (.ok (), after)) :
    Spent after ∧ after.history.length ≤ 1 ∧
      ∃ before ∈ session.model, after.model = some (before.windTo 0) := by
  obtain ⟨ledger, held, ⟨more, -⟩ | ⟨-, taken, takes, rfl⟩⟩ := undo_cases spent.plain done
  · rw [← records_eq spent.plain held, spent.bare] at more
    exact absurd more (Nat.lt_irrefl 0)
  · obtain ⟨replayed, runs, rfl⟩ := replayUndo_of_ok takes
    obtain ⟨reached, ran, rfl⟩ := replay_of_ok runs
    -- There is no entry to do again.
    rw [spent.drops] at ran
    cases ran
    have model : (session.shortening true 1).model = some (ledger.windTo 0) := by
      rw [shortening_model spent.plain, held, Option.map_some]
    have plain : (session.shortening true 1).engine = .plain := shortening_engine.trans spent.plain
    have bare : (session.shortening true 1).records = 0 := by
      rw [records_eq plain model, ledger.depth_windTo (Nat.zero_le _)]
    obtain ⟨spent, short, same⟩ := @spent_resuming (((session.shortening true 1).withAccess
      .dev).withAccess (session.shortening true 1).access) plain bare spent.drops rest
    exact ⟨spent, short, ledger, held, same.trans model⟩

theorem Spent.undoes (spent : Spent session)
    (done : (dispatch (obey nested scope (replayUndo nested true 1)) scope
        (List.replicate (count + 1) Command.undo.name)).on session = (.ok (), after)) :
    Spent after ∧ after.history.length ≤ 1 := by
  induction count generalizing session with
  | zero =>
      obtain ⟨_, reached, obeyed, others⟩ := ok_of_bind done
      cases others
      obtain ⟨spent, short, -⟩ := spent.undone obeyed
      exact ⟨spent, short⟩
  | succ count induction =>
      obtain ⟨_, reached, obeyed, others⟩ := ok_of_bind done
      exact induction (spent.undone obeyed).1 others

theorem Spent.on_undo (spent : Spent session) (held : session.model = some ledger)
    (unstopped : session.world.watch.stopped = false) (nested : Nested) (rest : List String) :
    ∃ after, (obeyToken (obey nested scope (replayUndo nested true 1)) scope Command.undo.name
      rest).on session = (.ok (), after) := by
  have idle : ((session.shortening true 1).history.forM fun entry =>
      runBody nested false (tokens entry)).on ((session.shortening true 1).withAccess .dev) =
        (.ok (), (session.shortening true 1).withAccess .dev) := by
    rw [spent.drops]
    rfl
  exact ⟨_, on_obeyToken_undo unstopped held nested scope (replayUndo nested true 1) rest
    (on_undoOr_of_bare spent.bare (on_replayUndo rest (on_replay_of idle)))⟩

theorem unstopped_of_command {run : Command → List String → Action Unit} {command : Command}
    (cancellable : scope.cancellable = true)
    (done : (obeyToken run scope command.name rest).on session = (.ok (), after)) :
    session.world.watch.stopped = false := by
  rw [obeyToken_command_eq] at done
  obtain ⟨_, _, checked, -⟩ := ok_of_bind done
  rw [on_checkpoint, cancellable, Bool.true_and] at checked
  cases stopped : session.world.watch.stopped with
  | false => rfl
  | true =>
      rw [stopped, if_pos rfl] at checked
      cases checked

theorem running_of_word {word : String} (reads : tokens statement = [word]) :
    session.running statement =
      (obeyToken (obey (.ofDepth session.nestingBound) ⟨true, true⟩
          (replayUndo (.ofDepth session.nestingBound) true 1)) ⟨true, true⟩
        word []).on (session.enter statement) := by
  rw [running, runRecorded, reads, dispatch, dispatch, bind_pure_unit]

/-- A statement that undoes no more than was recorded leaves so many records less. -/
theorem undone_of_success (plain : session.engine = .plain)
    (reads : tokens statement = List.replicate count Command.undo.name)
    (held : session.model = some ledger) (enough : count ≤ ledger.depth)
    (done : session.failure statement = none) :
    (session.executed statement).model = some (ledger.windTo (ledger.depth - count)) ∧
      (session.executed statement).history = session.history ++ [statement] := by
  obtain ⟨after, runs, settled⟩ := running_of_success done
  rw [running, runRecorded, reads] at runs
  have plain : (session.enter statement).engine = .plain := plain
  obtain ⟨model, untold⟩ := undoes_of_ok plain held enough runs
  rw [settled]
  exact ⟨model, untold.history⟩

theorem PaidFor.spent (paidFor : PaidFor session.history 0) (plain : session.engine = .plain)
    (bare : session.records = 0) (statement : String) : Spent (session.enter statement) where
  plain := plain
  bare := bare
  drops := by
    rw [shortening_history, enter_history]
    show (Session.dropOwed (session.history ++ [statement]).reverse.tail 1).reverse = []
    rw [List.reverse_append, List.reverse_singleton, List.singleton_append, List.tail_cons,
      paidFor.dropOwed Nat.zero_lt_one]
    rfl

/-- An `undo` by itself takes back the last record. If there is none, and the history is paid for, it
leaves the sheet as it was made. -/
theorem undo_of_paidFor (paidFor : session.records = 0 → PaidFor session.history 0)
    (plain : session.engine = .plain) (held : session.model = some ledger)
    (unstopped : session.world.watch.stopped = false)
    (reads : tokens statement = [Command.undo.name]) :
    session.failure statement = none ∧
      (session.executed statement).model = some (ledger.windTo (ledger.depth - 1)) := by
  suffices ∃ after, session.running statement = (.ok (), after) ∧
      after.model = some (ledger.windTo (ledger.depth - 1)) by
    obtain ⟨after, runs, model⟩ := this
    obtain ⟨done, settled⟩ := success_of_running runs
    exact ⟨done, settled ▸ model⟩
  rw [running_of_word reads]
  have entered : (session.enter statement).engine = .plain := plain
  have holds : (session.enter statement).model = some ledger := held
  have free : (session.enter statement).world.watch.stopped = false := unstopped
  rcases Nat.eq_zero_or_pos ledger.depth with none | more
  · have bare : session.records = 0 := (records_eq plain held).trans none
    have spent : Spent (session.enter statement) := (paidFor bare).spent plain bare statement
    obtain ⟨after, runs⟩ := spent.on_undo holds free (.ofDepth session.nestingBound) []
    obtain ⟨-, -, before, same, model⟩ := spent.undone runs
    rw [Option.mem_def, holds] at same
    cases same
    exact ⟨after, runs, none ▸ model⟩
  · exact ⟨_, on_obeyToken_undo_of_depth free entered holds more _ _ _ _, rfl⟩

theorem ready_of_undo (reads : tokens statement = [Command.undo.name])
    (done : session.failure statement = none) :
    session.model.isSome = true ∧ session.world.watch.stopped = false := by
  obtain ⟨after, runs, -⟩ := running_of_success done
  rw [running_of_word reads] at runs
  have present : (session.enter statement).model.isSome = true := present_of_command rfl runs
  have unstopped : (session.enter statement).world.watch.stopped = false :=
    unstopped_of_command rfl runs
  exact ⟨present, unstopped⟩

end Undoing

/-! ## Runs of effective statements -/

section Runs

variable {first session : Session} {statement : String}

theorem executedAll_engine (session : Session) (statements : List String) :
    (session.executedAll statements).engine = session.engine := by
  induction statements generalizing session with
  | nil => rfl
  | cons statement statements induction =>
      rw [executedAll_cons, induction, executed_engine]

/-- Sessions that are reached with success and whose last statements, since there was at most one entry,
all record something or undo no more than the records. -/
inductive EffectiveFrom (first : Session) : Session → Prop where
  | anew (statements : List String) (done : first.firstFailure statements = none)
      (short : (first.executedAll statements).history.length ≤ 1) :
      EffectiveFrom first (first.executedAll statements)
  | recording {session : Session} {statement : String} (earlier : EffectiveFrom first session)
      (done : session.failure statement = none)
      (more : session.records < (session.executed statement).records) :
      EffectiveFrom first (session.executed statement)
  | undoing {session : Session} {statement : String} (count : Nat)
      (earlier : EffectiveFrom first session)
      (reads : tokens statement = List.replicate (count + 1) Command.undo.name)
      (within : count < session.records ∨ session.records = 0)
      (done : session.failure statement = none) :
      EffectiveFrom first (session.executed statement)

theorem PaidFor.recording (paidFor : PaidFor session.history session.records)
    (done : session.failure statement = none)
    (more : session.records < (session.executed statement).records) :
    PaidFor (session.executed statement).history (session.executed statement).records := by
  obtain ⟨kept, trims, same | ⟨entry, longer⟩⟩ := history_of_success done
  · rw [same]
    exact (paidFor.trim trims).mono (Nat.le_of_lt more)
  · rw [longer]
    have one := paid_singleton_le entry
    exact (paidFor.trim trims).concat (by omega)

theorem PaidFor.undoing (paidFor : PaidFor session.history session.records) {count : Nat}
    (plain : session.engine = .plain)
    (reads : tokens statement = List.replicate (count + 1) Command.undo.name)
    (within : count < session.records ∨ session.records = 0)
    (done : session.failure statement = none) :
    PaidFor (session.executed statement).history (session.executed statement).records := by
  rcases within with within | bare
  · cases held : session.model with
    | none =>
        rw [records, depth, held] at within
        exact absurd within (Nat.not_lt_zero count)
    | some ledger =>
        rw [records_eq plain held] at paidFor within
        obtain ⟨model, history⟩ := undone_of_success plain reads held within done
        have plain : (session.executed statement).engine = .plain :=
          (executed_engine session statement).trans plain
        rw [history, records_eq plain model, ledger.depth_windTo (Nat.sub_le _ _)]
        refine paidFor.concat ?_
        have undoes := undoCount?_of_undoes reads
        have pays : paid [statement] = 0 := by simp [paid, undoes]
        have owes : undoneBy [statement] = count + 1 := by simp [undoneBy, undoes]
        omega
  · rw [bare] at paidFor
    obtain ⟨after, runs, settled⟩ := running_of_success done
    rw [running, runRecorded, reads] at runs
    rw [settled]
    exact .of_length_le ((paidFor.spent plain bare statement).undoes runs).2

theorem EffectiveFrom.paidFor (effective : EffectiveFrom first session)
    (plain : first.engine = .plain) :
    session.engine = .plain ∧ PaidFor session.history session.records := by
  induction effective with
  | anew statements done short =>
      exact ⟨(executedAll_engine first statements).trans plain, .of_length_le short⟩
  | @recording session statement earlier done more induction =>
      exact ⟨(executed_engine session statement).trans induction.1, induction.2.recording done more⟩
  | @undoing session statement count earlier reads within done induction =>
      exact ⟨(executed_engine session statement).trans induction.1,
        induction.2.undoing induction.1 reads within done⟩

/-- An `undo` of a sheet succeeds unless the operator has stopped it. It takes back the last record, or
finds none to take back. -/
theorem undo_takes_back (plain : session.engine = .plain)
    (paidFor : session.records = 0 → PaidFor session.history 0)
    (reads : tokens statement = [Command.undo.name]) :
    (session.failure statement = none ↔
        session.model.isSome = true ∧ session.world.watch.stopped = false) ∧
      (session.failure statement = none →
        ∃ before ∈ session.model, ∃ after ∈ (session.executed statement).model,
          after.journal <+: before.journal ∧ after.depth = before.depth - 1) := by
  refine ⟨⟨ready_of_undo reads, fun ⟨present, unstopped⟩ => ?_⟩, fun done => ?_⟩
  · obtain ⟨ledger, held⟩ := Option.isSome_iff_exists.1 present
    exact (undo_of_paidFor paidFor plain held unstopped reads).1
  · obtain ⟨present, unstopped⟩ := ready_of_undo reads done
    obtain ⟨ledger, held⟩ := Option.isSome_iff_exists.1 present
    obtain ⟨-, model⟩ := undo_of_paidFor paidFor plain held unstopped reads
    refine ⟨ledger, held, _, model, ?_, ledger.depth_windTo (Nat.sub_le _ _)⟩
    rw [ledger.windTo_journal (Nat.sub_le _ _)]
    exact List.take_prefix _ _

end Runs

def exhausted : Session :=
  ((fresh.executedAll ["paper [square] new"]).executed "plane [1 0 0] [1 0 0] reflect").executed
    "undo"

theorem effectiveFrom_exhausted : EffectiveFrom fresh exhausted := by
  refine .undoing 0 (.recording (.anew ["paper [square] new"] ?_ ?_) ?_ ?_) ?_ (.inl ?_) ?_
  all_goals decide +kernel

/-- The second fold of its statement pays for the color. -/
def tinted : Session :=
  fresh.executedAll ["paper [square] new",
    "plane [1 0 0] [1 0 0] reflect plane [2 0 0] [1 0 0] reflect", "color [1]", "undo", "undo"]

theorem undo_takes_back_exhausted :
    (exhausted.records = 0 ∧ exhausted.failure "undo" = none ∧ ∃ before ∈ exhausted.model,
        ∃ after ∈ (exhausted.executed "undo").model,
          after.journal <+: before.journal ∧ after.depth = before.depth - 1) ∧
      tinted.records = 0 ∧ tinted.failure "undo" = none ∧ ∃ before ∈ tinted.model,
        ∃ after ∈ (tinted.executed "undo").model,
          after.journal <+: before.journal ∧ after.depth = before.depth - 1 := by
  have reads : tokens "undo" = [Command.undo.name] := by decide +kernel
  have bare : exhausted.records = 0 := by decide +kernel
  have bare' : tinted.records = 0 := by decide +kernel
  have paidFor : PaidFor exhausted.history 0 := bare ▸ (effectiveFrom_exhausted.paidFor rfl).2
  have paidFor' : PaidFor tinted.history 0 := by decide +kernel
  obtain ⟨succeeds, takes⟩ :=
    undo_takes_back (effectiveFrom_exhausted.paidFor rfl).1 (fun _ => paidFor) reads
  obtain ⟨succeeds', takes'⟩ := undo_takes_back (executedAll_engine fresh _) (fun _ => paidFor') reads
  have done : exhausted.failure "undo" = none := succeeds.2 (by decide +kernel)
  have done' : tinted.failure "undo" = none := succeeds'.2 (by decide +kernel)
  exact ⟨⟨bare, done, takes done⟩, bare', done', takes' done'⟩

def repainted : List String :=
  ["paper [square] new", "plane [1 0 0] [1 0 0] reflect", "color [1]", "color [2]", "undo"]

/-- The two colors pay for both the `undo` before and this one, which does the fold again. -/
theorem undo_repeats_fold :
    fresh.firstFailure repainted = none ∧ tokens "undo" = [Command.undo.name] ∧
      (fresh.executedAll repainted).failure "undo" = none ∧
      ∃ before ∈ (fresh.executedAll repainted).model,
        ∃ after ∈ ((fresh.executedAll repainted).executed "undo").model,
          ¬ after.journal <+: before.journal := by
  decide +kernel

end Session

end PaperFolding
