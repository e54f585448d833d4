import PaperFolding.Proofs.Session.WalkBack

/-!
Undoing several times in one statement and in several. Both agree as long as the engine can undo; a
statement that goes on behind that starts over from the fold before the last, while every further
statement comes to a sheet without folds.
-/

namespace PaperFolding

open Script

namespace Session

/-- The records that one statement leaves which undoes so many times: when none are left, the walk back
starts with all but one of those that the history has. -/
def recordsLeft : Nat → Nat → Nat → Nat
  | _, records, 0 => records
  | folds, 0, words + 1 => recordsLeft (folds - 1) (folds - 1) words
  | folds, records + 1, words + 1 => recordsLeft folds records words

theorem recordsLeft_le {folds records : Nat} (fewer : records ≤ folds) (words : Nat) :
    recordsLeft folds records words ≤ folds := by
  induction words generalizing folds records with
  | zero => exact fewer
  | succ words induction =>
      cases records with
      | zero => exact Nat.le_trans (induction (Nat.le_refl _)) (Nat.sub_le folds 1)
      | succ records => exact induction (Nat.le_of_succ_le fewer)

theorem recordsLeft_of_le {folds records words : Nat} (enough : words ≤ records) :
    recordsLeft folds records words = records - words := by
  induction words generalizing records with
  | zero => rfl
  | succ words induction =>
      obtain ⟨records, rfl⟩ := Nat.exists_eq_succ_of_ne_zero (Nat.ne_zero_of_lt enough)
      rw [recordsLeft, induction (Nat.le_of_succ_le_succ enough), Nat.succ_sub_succ]

/-! ## Histories and what they tell -/

/-- The history is that of a trail that ends with the records, or nothing is left of it. -/
inductive Told (base : Ledger) (entry : String) (outline : Outline) :
    List String → List Record → Prop where
  | trail {statements : List String} {ledger : Ledger} {records : List Record}
      (trail : Trail base statements ledger) (content : ledger.content = (outline, records)) :
      Told base entry outline (entry :: statements) records
  | gone : Told base entry outline [] []

section Told

variable {base : Ledger} {entry : String} {outline : Outline} {history : List String}
  {records : List Record} {session : Session} {ledger : Ledger}

theorem Told.shorter (bare : base.journal = []) (told : Told base entry outline history records) :
    Told base entry outline (dropOwed history.reverse 1).reverse records.dropLast := by
  cases told with
  | gone => exact .gone
  | @trail statements ledger _ trail content =>
      obtain ⟨rfl, rfl⟩ := Prod.mk.inj content
      rcases Nat.eq_zero_or_pos ledger.depth with none | more
      · have empty : ledger.journal = [] := List.eq_nil_of_length_eq_zero none
        rw [trail.walkBack_all entry (by omega), empty]
        exact .gone
      · obtain ⟨part, left, comes⟩ := trail.walkBack bare entry 1 more
        rw [comes.drops, List.reverse_reverse, List.dropLast_eq_take]
        exact .trail comes.trail comes.content

theorem Told.undo {statement : String} (told : Told base entry outline history records)
    (some : records ≠ []) (reads : tokens statement = [Command.undo.name]) :
    Told base entry outline (history ++ [statement]) records.dropLast := by
  cases told with
  | gone => exact absurd rfl some
  | @trail statements ledger _ trail content =>
      obtain ⟨rfl, rfl⟩ := Prod.mk.inj content
      have more : 0 < ledger.depth := List.length_pos_iff.2 some
      refine .trail (trail.step (.undoes 0 (leads_of_undoes 1 reads more)
        (undoCount?_of_undoes reads) more)) ?_
      rw [ledger.windTo_content (Nat.sub_le _ _), List.dropLast_eq_take]
      rfl

theorem Told.replay (told : Told base entry outline history records) (makes : Makes entry base)
    (blank : Blank session) (plain : session.engine = .plain) (kept : session.history = history)
    (held : session.model.map Ledger.content = some (outline, [])) (nested : Nested) :
    ∃ after left, (replay nested).on session = (.ok (), after) ∧ Holds after left ∧
      left.content = (outline, records) ∧ after.history = history := by
  cases told with
  | gone =>
      obtain ⟨left, model, content⟩ := Option.map_eq_some_iff.1 held
      have idle : (session.history.forM fun entry => runBody nested false (tokens entry)).on
          (session.withAccess .dev) = (.ok (), session.withAccess .dev) := by
        rw [kept]
        rfl
      refine ⟨_, left, on_replay_of idle, ?_, content, kept⟩
      exact ⟨blank.ordinary.same rfl rfl, plain, congrArg Stage.target blank.stage, model⟩
  | trail trail content =>
      obtain ⟨after, runs, holds, history⟩ := trail.replay makes blank plain kept nested
      exact ⟨after, _, runs, holds, content, history⟩

end Told

/-! ## One statement -/

/-- A running statement that has only undone, with its entry behind a history that tells the records. -/
structure Midway (base : Ledger) (entry : String) (session : Session) (ledger : Ledger)
    (history : List String) (records : List Record) : Prop where
  holds : Holds session ledger
  told : Told base entry ledger.outline history records
  entered : ∃ statement, session.history = history ++ [statement]
  inHistory : session.draft.inHistory = true
  applied : session.draft.applied = false

namespace Midway

variable {base : Ledger} {entry : String} {session : Session} {ledger : Ledger}
  {history : List String} {records : List Record}

theorem undo (midway : Midway base entry session ledger history records)
    (more : 0 < ledger.depth) (nested : Nested) (takeBack : List String → Action Unit)
    (rest : List String) :
    ∃ after,
      (obeyToken (obey nested ⟨true, true⟩ takeBack) ⟨true, true⟩ Command.undo.name rest).on
        session = (.ok (), after) ∧
      Midway base entry after (ledger.windTo (ledger.depth - 1)) history records := by
  obtain ⟨after, runs, reached, untold⟩ := midway.holds.undo more nested ⟨true, true⟩ takeBack rest
  refine ⟨after, runs, reached, midway.told, ?_, ?_, ?_⟩
  · rw [untold.history]
    exact midway.entered
  · rw [untold.draft]
    exact midway.inHistory
  · rw [untold.draft]
    exact midway.applied

theorem startOver (midway : Midway base entry session ledger history records)
    (makes : Makes entry base) (bare : base.journal = []) (none : ledger.depth = 0)
    (nested : Nested) (rest : List String) :
    ∃ replayed left, Holds replayed left ∧ left.content = (ledger.outline, records.dropLast) ∧
      Told base entry ledger.outline replayed.history records.dropLast ∧
      (obeyToken (obey nested ⟨true, true⟩ (replayUndo nested true 1)) ⟨true, true⟩
        Command.undo.name rest).on session =
          (.ok (), { replayed.resuming true rest with stage := .empty }) := by
  obtain ⟨statement, entered⟩ := midway.entered
  have shortened : (session.shortening true 1).history = (dropOwed history.reverse 1).reverse := by
    rw [shortening_history, entered, shortenedHistory, midway.inHistory, midway.applied,
      Bool.true_and, if_pos rfl, if_neg Bool.false_ne_true, List.reverse_append,
      List.reverse_singleton, List.singleton_append, List.tail_cons]
  have held : (session.shortening true 1).model.map Ledger.content =
      some (ledger.outline, []) := by
    rw [shortening_model midway.holds.plain, midway.holds.model, Option.map_some, Option.map_some,
      ledger.windTo_content (Nat.zero_le _), List.take_zero]
  have told := midway.told.shorter bare
  obtain ⟨replayed, left, runs, holds, content, kept⟩ :=
    told.replay makes (blank_shortening midway.holds.ordinary)
      (shortening_engine.trans midway.holds.plain) shortened held nested
  have bare : session.depth.getD 0 = 0 := by
    rw [midway.holds.ready, none]
    rfl
  refine ⟨replayed, left, holds, content, kept ▸ told, ?_⟩
  exact on_obeyToken_undo midway.holds.ordinary.unstopped midway.holds.model nested ⟨true, true⟩
    (replayUndo nested true 1) rest (on_undoOr_of_bare bare (on_replayUndo rest runs))

theorem resume {outline : Outline} {replayed : Session} {left : Ledger}
    (holds : Holds replayed left) (content : left.content = (outline, records))
    (told : Told base entry outline replayed.history records) (words : Nat) :
    Midway base entry
      { replayed.resuming true (List.replicate (words + 1) Command.undo.name) with stage := .empty }
      left replayed.history records := by
  have more : (restore (List.replicate (words + 1) Command.undo.name)).isEmpty = false :=
    isEmpty_restore_undo _
  have outline : left.outline = _ := congrArg Prod.fst content
  rw [resuming_of_more more replayed]
  exact ⟨⟨holds.ordinary.same rfl rfl, holds.plain, rfl, holds.model⟩, outline ▸ told, ⟨_, rfl⟩,
    rfl, rfl⟩

theorem undoes (makes : Makes entry base) (bare : base.journal = []) (nested : Nested)
    (words : Nat) (midway : Midway base entry session ledger history records)
    (within : ledger.journal <+: records) :
    ∃ after left,
      (dispatch (obey nested ⟨true, true⟩ (replayUndo nested true 1)) ⟨true, true⟩
        (List.replicate words Command.undo.name)).on session = (.ok (), after) ∧
      Holds after left ∧
      left.content =
        (ledger.outline, records.take (recordsLeft records.length ledger.depth words)) := by
  induction words generalizing session ledger history records with
  | zero =>
      refine ⟨session, ledger, rfl, midway.holds, ?_⟩
      rw [Ledger.content, recordsLeft, Ledger.depth, ← List.prefix_iff_eq_take.1 within]
  | succ words induction =>
      rw [List.replicate_succ, dispatch]
      rcases Nat.eq_zero_or_pos ledger.depth with none | more
      · obtain ⟨replayed, left, holds, content, told, runs⟩ :=
          midway.startOver makes bare none nested (List.replicate words Command.undo.name)
        have journal : left.journal = records.dropLast := congrArg Prod.snd content
        have depth : left.depth = records.length - 1 := by
          rw [Ledger.depth, journal, List.length_dropLast]
        rw [on_bind_of_ok runs, none, recordsLeft]
        cases words with
        | zero =>
            refine ⟨_, left, rfl, ⟨holds.ordinary.same rfl rfl, holds.plain, rfl, holds.model⟩, ?_⟩
            rw [content, recordsLeft, List.dropLast_eq_take]
        | succ words =>
            -- The words that are left have become an entry of their own.
            obtain ⟨after, last, runs', reached, content'⟩ :=
              induction (Midway.resume holds content told words) (journal ▸ List.prefix_rfl)
            refine ⟨after, last, runs', reached, ?_⟩
            have outline : left.outline = ledger.outline := congrArg Prod.fst content
            rw [content', outline, depth, List.length_dropLast, List.dropLast_eq_take,
              List.take_take, Nat.min_eq_left (recordsLeft_le (Nat.le_refl _) _)]
      · obtain ⟨middle, runs, next⟩ :=
          midway.undo more nested (replayUndo nested true 1) (List.replicate words Command.undo.name)
        have shorter : (ledger.windTo (ledger.depth - 1)).journal <+: records := by
          rw [ledger.windTo_journal (Nat.sub_le _ _)]
          exact (List.take_prefix _ _).trans within
        obtain ⟨depth, deeper⟩ := Nat.exists_eq_succ_of_ne_zero (Nat.ne_of_gt more)
        obtain ⟨after, last, runs', reached, content⟩ := induction next shorter
        refine ⟨after, last, (on_bind_of_ok runs).trans runs', reached, ?_⟩
        rw [content, ledger.depth_windTo (Nat.sub_le _ _), deeper, recordsLeft]
        rfl

end Midway

/-! ## Several statements -/

/-- A session whose history tells the records that it has. -/
structure Telling (base : Ledger) (entry : String) (session : Session) (ledger : Ledger) : Prop where
  holds : Holds session ledger
  told : Told base entry ledger.outline session.history ledger.journal

namespace Telling

variable {base : Ledger} {entry : String} {session : Session} {ledger : Ledger} {statement : String}

theorem enter (telling : Telling base entry session ledger) (statement : String) :
    Midway base entry (session.enter statement) ledger session.history ledger.journal :=
  ⟨telling.holds.enter statement, telling.told, ⟨statement, rfl⟩, rfl, rfl⟩

theorem undo (telling : Telling base entry session ledger) (makes : Makes entry base)
    (bare : base.journal = []) (reads : tokens statement = [Command.undo.name]) :
    session.failure statement = none ∧ ∃ next,
      Telling base entry (session.executed statement) next ∧
      next.content = (ledger.outline, ledger.journal.dropLast) := by
  rcases Nat.eq_zero_or_pos ledger.depth with none | more
  · obtain ⟨replayed, left, holds, content, told, runs⟩ :=
      (telling.enter statement).startOver makes bare none (.ofDepth session.nestingBound) []
    obtain ⟨outline, journal⟩ := Prod.mk.inj content
    have idle : replayed.resuming true [] = replayed := rfl
    have ran : session.running statement = (.ok (), { replayed with stage := .empty }) := by
      rw [running, runRecorded, reads, dispatch, on_bind_of_ok runs, idle]
      rfl
    obtain ⟨done, settled⟩ := success_of_running ran
    refine ⟨done, left, ?_, content⟩
    rw [settled]
    refine ⟨⟨holds.ordinary.same rfl rfl, holds.plain, rfl, holds.model⟩, ?_⟩
    rw [outline, journal]
    exact told
  · have leads : Leads statement ledger (ledger.windTo (ledger.depth - 1)) :=
      leads_of_undoes 1 reads more
    obtain ⟨done, holds, history⟩ := leads.executed telling.holds
    refine ⟨done, _, ⟨holds, ?_⟩, ?_⟩
    · rw [history, ledger.windTo_journal (Nat.sub_le _ _), Ledger.depth, ← List.dropLast_eq_take]
      exact telling.told.undo (List.ne_nil_of_length_pos more) reads
    · rw [ledger.windTo_content (Nat.sub_le _ _), List.dropLast_eq_take]
      rfl

theorem undoes (makes : Makes entry base) (bare : base.journal = []) {single : List String}
    (each : ∀ statement ∈ single, tokens statement = [Command.undo.name])
    (telling : Telling base entry session ledger) :
    session.firstFailure single = none ∧ ∃ next,
      Telling base entry (session.executedAll single) next ∧
      next.content = (ledger.outline, ledger.journal.take (ledger.depth - single.length)) := by
  induction single generalizing session ledger with
  | nil =>
      refine ⟨rfl, ledger, telling, ?_⟩
      rw [List.length_nil, Nat.sub_zero, Ledger.depth, List.take_length]
      rfl
  | cons statement single induction =>
      obtain ⟨here, others⟩ := List.forall_mem_cons.1 each
      obtain ⟨done, middle, reached, content⟩ := telling.undo makes bare here
      obtain ⟨done', next, reached', content'⟩ := induction others reached
      obtain ⟨outline, journal⟩ := Prod.mk.inj content
      refine ⟨firstFailure_cons.2 ⟨done, done'⟩, next, reached', ?_⟩
      rw [content', outline, Ledger.depth, journal, take_dropLast]
      rfl

end Telling

section Repeating

variable {start : Session} {first statement : String} {statements single : List String}
  {ledger : Ledger}

theorem Opens.telling (opens : Opens start first) (works : Works (start.executed first) statements) :
    ∃ base entry ledger, Makes entry base ∧ base.journal = [] ∧
      Telling base entry (start.executedAll (first :: statements)) ledger := by
  obtain ⟨entry, base, makes, bare, worked⟩ := opens.works works
  obtain ⟨ledger, trail, holds, history⟩ := worked statements List.prefix_rfl
  refine ⟨base, entry, ledger, makes, bare, holds, ?_⟩
  rw [history]
  exact .trail trail rfl

/-- Undoing several times in one statement and in as many statements always succeeds. It comes to the same
sheet exactly if there is a record for each time, or the one statement happens to leave none. -/
theorem repeated_undo_agrees_iff (opens : Opens start first)
    (works : Works (start.executed first) statements)
    (held : ledger ∈ (start.executedAll (first :: statements)).model) (times : Nat)
    (reads : tokens statement = List.replicate times Command.undo.name)
    (each : ∀ statement ∈ single, tokens statement = [Command.undo.name])
    (length : single.length = times) :
    (start.executedAll (first :: statements)).failure statement = none ∧
      (start.executedAll (first :: statements)).firstFailure single = none ∧
      (((start.executedAll (first :: statements)).executed statement).model.map Ledger.content =
          ((start.executedAll (first :: statements)).executedAll single).model.map Ledger.content ↔
        times ≤ ledger.depth ∨ recordsLeft ledger.depth ledger.depth times = 0) := by
  obtain ⟨base, entry, same, makes, bare, telling⟩ := opens.telling works
  rw [Option.mem_def, telling.holds.model] at held
  cases held
  generalize start.executedAll (first :: statements) = session at telling ⊢
  obtain ⟨ended, left, runs, holds, content⟩ :=
    (telling.enter statement).undoes makes bare (.ofDepth session.nestingBound) times
      List.prefix_rfl
  rw [← reads] at runs
  have ran : session.running statement = (.ok (), ended) := runs
  obtain ⟨done, settled⟩ := success_of_running ran
  obtain ⟨done', next, telling', content'⟩ := telling.undoes makes bare each
  refine ⟨done, done', ?_⟩
  rw [settled, holds.settle.model, telling'.holds.model, Option.map_some, Option.map_some, content,
    content', length, Option.some_inj, Prod.mk.injEq, and_iff_right rfl, List.take_eq_take_iff]
  show min (recordsLeft ledger.depth ledger.depth times) ledger.depth =
    min (ledger.depth - times) ledger.depth ↔ _
  have bound := recordsLeft_le (Nat.le_refl ledger.depth) times
  rcases Nat.lt_or_ge ledger.depth times with beyond | enough
  · omega
  · rw [recordsLeft_of_le enough]
    exact iff_of_true rfl (.inl enough)

end Repeating

def twoFolds : List String := ["plane [1 0 0] [1 0 0] reflect", "plane [2 0 0] [1 0 0] reflect"]

theorem works_twoFolds : Works (fresh.executed "paper [square] new") twoFolds := by
  have reflects : FoldsOnce .reflect ["plane", "[1|0|0]", "[1|0|0]"] [] :=
    ⟨by decide, by decide +kernel, by decide, by decide +kernel, by decide +kernel, nofun⟩
  have reflects' : FoldsOnce .reflect ["plane", "[2|0|0]", "[1|0|0]"] [] :=
    ⟨by decide, by decide +kernel, by decide, by decide +kernel, by decide +kernel, nofun⟩
  refine .fold (.fold .start reflects ?_ ?_) reflects' ?_ ?_
  all_goals decide +kernel

theorem repeated_undo_agrees_iff_two :
    ((fresh.executedAll ("paper [square] new" :: twoFolds)).executed
        "undo undo").model.map Ledger.content =
      ((fresh.executedAll ("paper [square] new" :: twoFolds)).executedAll
        ["undo", "undo"]).model.map Ledger.content := by
  obtain ⟨ledger, held, two⟩ : ∃ ledger ∈
      (fresh.executedAll ("paper [square] new" :: twoFolds)).model, 2 ≤ ledger.depth := by
    decide +kernel
  exact (repeated_undo_agrees_iff opens_square works_twoFolds held 2 (by decide +kernel)
    (by decide +kernel) rfl).2.2.2 (.inl two)

/-- The third word of the one statement starts over and leaves the first fold. -/
theorem repeated_undo_disagrees :
    Opens fresh "paper [square] new" ∧ Works (fresh.executed "paper [square] new") twoFolds ∧
      tokens "undo undo undo" = List.replicate 3 Command.undo.name ∧
      ((fresh.executedAll ("paper [square] new" :: twoFolds)).executed
        "undo undo undo").model.map Ledger.depth = some 1 ∧
      ((fresh.executedAll ("paper [square] new" :: twoFolds)).executedAll
        ["undo", "undo", "undo"]).model.map Ledger.depth = some 0 := by
  refine ⟨opens_square, works_twoFolds, ?_, ?_, ?_⟩
  all_goals decide +kernel

end Session

end PaperFolding
