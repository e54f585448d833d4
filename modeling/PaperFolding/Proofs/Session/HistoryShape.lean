import PaperFolding.Proofs.Session.Holding

/-!
What a statement that succeeds leaves of the history it began with: a front part of it, and behind
that at most one entry. What the walk back drops is told by counting the entries that undo and the others.
-/

namespace PaperFolding

open Script

namespace Session

/-! ## What the walk back drops -/

/-- The number of entries that pay for what is owed. -/
def paid (entries : List String) : Nat :=
  entries.countP fun entry => (undoCount? entry).isNone

/-- The number of `undo` words in entries that hold nothing else. -/
def undoneBy : List String → Nat
  | [] => 0
  | entry :: entries => (undoCount? entry).getD 0 + undoneBy entries

theorem paid_append (front back : List String) : paid (front ++ back) = paid front + paid back :=
  List.countP_append

theorem undoneBy_append (front back : List String) :
    undoneBy (front ++ back) = undoneBy front + undoneBy back := by
  induction front with
  | nil => exact (Nat.zero_add _).symm
  | cons entry front induction =>
      rw [List.cons_append, undoneBy, undoneBy, induction, Nat.add_assoc]

theorem paid_reverse (entries : List String) : paid entries.reverse = paid entries :=
  List.countP_reverse

theorem undoneBy_reverse (entries : List String) : undoneBy entries.reverse = undoneBy entries := by
  induction entries with
  | nil => rfl
  | cons entry entries induction =>
      rw [List.reverse_cons, undoneBy_append, induction, undoneBy, undoneBy, undoneBy, Nat.add_zero,
        Nat.add_comm]

theorem paid_singleton_le (entry : String) : paid [entry] ≤ 1 := List.countP_le_length

/-- The walk back drops everything, or exactly as much as is owed. -/
theorem dropOwed_cases (entries : List String) (owed : Nat) :
    ∃ dropped, entries = dropped ++ dropOwed entries owed ∧
      (dropOwed entries owed = [] ∨ paid dropped = owed + undoneBy dropped) := by
  induction entries generalizing owed with
  | nil => exact ⟨[], rfl, .inl rfl⟩
  | cons entry earlier induction =>
      cases owed with
      | zero =>
          rw [dropOwed_zero]
          exact ⟨[], rfl, .inr rfl⟩
      | succ owed =>
          rw [dropOwed]
          cases counts : undoCount? entry with
          | some count =>
              obtain ⟨dropped, split, ends⟩ := induction (owed + 1 + count)
              refine ⟨entry :: dropped, congrArg (entry :: ·) split, ends.imp_right fun pays => ?_⟩
              have pays : paid (entry :: dropped) = paid dropped := by simp [paid, counts]
              have undoes : undoneBy (entry :: dropped) = count + undoneBy dropped := by
                simp [undoneBy, counts]
              omega
          | none =>
              obtain ⟨dropped, split, ends⟩ := induction owed
              refine ⟨entry :: dropped, congrArg (entry :: ·) split, ends.imp_right fun pays => ?_⟩
              have more : paid (entry :: dropped) = paid dropped + 1 := by simp [paid, counts]
              have undoes : undoneBy (entry :: dropped) = undoneBy dropped := by
                simp [undoneBy, counts]
              omega

/-- A front part of the history, behind which at least as many entries pay as were undone. -/
def Trims (history kept : List String) : Prop :=
  kept = [] ∨ ∃ dropped, history = kept ++ dropped ∧ undoneBy dropped ≤ paid dropped

namespace Trims

variable {history kept : List String}

theorem refl (history : List String) : Trims history history :=
  .inr ⟨[], (List.append_nil history).symm, Nat.le_refl 0⟩

theorem isPrefix (trims : Trims history kept) : kept <+: history := by
  rcases trims with rfl | ⟨dropped, rfl, -⟩
  · exact List.nil_prefix
  · exact List.prefix_append kept dropped

theorem dropOwed (trims : Trims history kept) (owed : Nat) :
    Trims history (dropOwed kept.reverse owed).reverse := by
  obtain ⟨late, split, gone | pays⟩ := dropOwed_cases kept.reverse owed
  · exact .inl (by rw [gone, List.reverse_nil])
  · rcases trims with rfl | ⟨dropped, rfl, fewer⟩
    · exact .inl rfl
    · have whole : kept = (Session.dropOwed kept.reverse owed).reverse ++ late.reverse := by
        rw [← List.reverse_append, ← split, List.reverse_reverse]
      refine .inr ⟨late.reverse ++ dropped, ?_, ?_⟩
      · rw [← List.append_assoc, ← whole]
      · rw [undoneBy_append, paid_append, undoneBy_reverse, paid_reverse]
        omega

end Trims

/-! ## Scripts that are not recorded -/

/-- The history and whether it holds the running statement are the same. -/
structure Unwritten (before after : Session) : Prop where
  history : after.history = before.history
  inHistory : after.draft.inHistory = before.draft.inHistory

theorem Unwritten.trans {first second third : Session} (earlier : Unwritten first second)
    (later : Unwritten second third) : Unwritten first third :=
  ⟨later.history.trans earlier.history, later.inHistory.trans earlier.inHistory⟩

def unwrittenConduct : Conduct where
  leads := Unwritten
  permits _ := True
  refl _ := ⟨rfl, rfl⟩
  trans := .trans
  beside beside := ⟨beside.history, beside.inHistory⟩
  noting _ _ := ⟨rfl, rfl⟩
  applying _ _ := ⟨rfl, rfl⟩
  undoing _ _ _ _ _ _ := ⟨rfl, rfl⟩
  redoing _ _ _ _ _ _ := ⟨rfl, rfl⟩
  replacing _ _ := ⟨rfl, rfl⟩
  recorded := False
  rewriting := False.elim
  closing _ _ _ := ⟨rfl, rfl⟩
  replaying _ _ := trivial

section Unrecorded

variable {depth : Nat} {session after : Session} {takeBack : List String → Action Unit}
  {rest : List String} {scope : Scope} {steps : Nat}

theorem Follows.leads_of_ok {α : Type} {conduct : Conduct} {action : Action α} {value : α}
    (follows : Follows conduct action) (done : action.on session = (.ok value, after)) :
    conduct.leads session after := by
  have leads := follows session
  rwa [done] at leads

theorem unwritten_of_replay (done : (replay (.ofDepth depth)).on session = (.ok (), after)) :
    Unwritten session after := by
  have follows : Follows unwrittenConduct (replay (.ofDepth depth)) := follows_replay trivial depth
  exact follows.leads_of_ok done

theorem unwritten_of_obey {command : Command} (other : command ≠ .undo)
    (stays : command ∉ rewriters)
    (done : (obey (.ofDepth depth) scope takeBack command rest).on session = (.ok (), after)) :
    Unwritten session after := by
  have loads : command ≠ .load := by
    rintro rfl
    exact stays (by decide)
  have follows : Follows unwrittenConduct (obey (.ofDepth depth) scope takeBack command rest) :=
    follows_obey command (fun undoes => absurd undoes other) (fun rewrites => absurd rewrites stays)
      rest loads trivial
  exact follows.leads_of_ok done

theorem shortening_inHistory : (session.shortening true steps).draft.inHistory = false := by
  have undoes : unwrittenConduct.permits .undo := trivial
  have rewound : Unwritten (session.dropping true steps) ((session.dropping true steps).rewind 0) :=
    leads_rewind undoes trivial 0 (session.dropping true steps)
  show ((session.dropping true steps).rewind 0).draft.inHistory = false
  rw [rewound.inHistory]
  exact Bool.and_false _

end Unrecorded

/-! ## Recorded statements -/

/-- Of the history that a running statement began with a front part is left, with the entry of the
statement behind it as long as it is in the history. -/
structure Leaves (history kept : List String) (session : Session) : Prop where
  trims : Trims history kept
  ends : (session.draft.inHistory = true ∧ ∃ entry, session.history = kept ++ [entry]) ∨
    session.draft.inHistory = false ∧ session.history = kept

namespace Leaves

variable {history kept : List String} {depth : Nat} {token : String} {rest row : List String}
  {session after : Session}

theorem unwritten (leaves : Leaves history kept session) (unwritten : Unwritten session after) :
    Leaves history kept after where
  trims := leaves.trims
  ends := by
    rw [unwritten.history, unwritten.inHistory]
    exact leaves.ends

theorem beside (leaves : Leaves history kept session) (beside : Beside session after) :
    Leaves history kept after :=
  leaves.unwritten ⟨beside.history, beside.inHistory⟩

/-- What is left when the walk back has dropped entries, but not yet begun a new one. -/
theorem shortened (leaves : Leaves history kept session) (steps : Nat) :
    Trims history (session.shortening true steps).history := by
  rw [shortening_history, shortenedHistory]
  rcases leaves.ends with ⟨within, entry, ends⟩ | ⟨without, ends⟩
  · rw [within, ends, Bool.true_and, if_pos rfl, List.reverse_append, List.reverse_singleton,
      List.singleton_append, List.tail_cons]
    exact leaves.trims.dropOwed _
  · rw [without, ends, Bool.and_false, if_neg Bool.false_ne_true]
    exact leaves.trims.dropOwed _

/-- Starting over leaves the rest of the statement as the new entry, if there is any. -/
theorem restarted (leaves : Leaves history kept session)
    (done : (replayUndo (.ofDepth depth) true 1 rest).on session = (.ok (), after)) :
    ∃ kept, Leaves history kept after := by
  obtain ⟨replayed, runs, rfl⟩ := replayUndo_of_ok done
  have replays := unwritten_of_replay runs
  refine ⟨_, leaves.shortened 1, ?_⟩
  rcases resuming_cases rest replayed with ends | resumes
  · rw [ends]
    exact .inr ⟨replays.inHistory.trans shortening_inHistory, replays.history⟩
  · rw [resumes, ← replays.history]
    exact .inl ⟨rfl, restore rest, rfl⟩

theorem undone (leaves : Leaves history kept session)
    (done : (undoOr (replayUndo (.ofDepth depth) true 1 rest)).on session = (.ok (), after)) :
    ∃ kept, Leaves history kept after := by
  obtain ⟨_, _, got, done⟩ := ok_of_bind done
  cases got
  obtain ⟨_, reached, undoes, clears⟩ := ok_of_bind done
  cases clears
  split at undoes
  · have untold := fold_frame undoes
    exact ⟨kept, leaves.unwritten ⟨untold.history, congrArg Draft.inHistory untold.draft⟩⟩
  · obtain ⟨kept, leaves⟩ := leaves.restarted undoes
    exact ⟨kept, leaves.unwritten ⟨rfl, rfl⟩⟩

/-- The history is started anew with the statement itself. -/
theorem rewritten {cancellable : Bool} {nested : Nested} {takeBack : List String → Action Unit}
    {command : Command} (rewrites : command ∈ rewriters)
    (done : (obey nested ⟨true, cancellable⟩ takeBack command rest).on session = (.ok (), after)) :
    Leaves history [] after := by
  refine ⟨.inl rfl, .inl ?_⟩
  simp only [rewriters, List.mem_cons, List.not_mem_nil, or_false] at rewrites
  rcases rewrites with rfl | rfl | rfl
  · obtain ⟨_, _, -, done⟩ := ok_of_bind done
    obtain ⟨_, _, -, done⟩ := ok_of_bind done
    obtain ⟨_, _, -, done⟩ := ok_of_bind done
    obtain ⟨_, _, -, done⟩ := ok_of_bind done
    obtain ⟨_, _, rebases, clears⟩ := ok_of_bind done
    cases rebases
    cases clears
    exact ⟨rfl, _, rfl⟩
  · obtain ⟨_, _, -, done⟩ := ok_of_bind done
    obtain ⟨_, _, -, done⟩ := ok_of_bind done
    obtain ⟨_, _, rebases, clears⟩ := ok_of_bind done
    cases rebases
    cases clears
    exact ⟨rfl, _, rfl⟩
  · obtain ⟨_, _, -, done⟩ := ok_of_bind done
    obtain ⟨_, _, -, done⟩ := ok_of_bind done
    obtain ⟨_, _, -, done⟩ := ok_of_bind done
    obtain ⟨_, _, -, done⟩ := ok_of_bind done
    obtain ⟨_, _, -, done⟩ := ok_of_bind done
    obtain ⟨_, _, -, rebases⟩ := ok_of_bind done
    cases rebases
    exact ⟨rfl, _, rfl⟩

theorem obeyToken {cancellable : Bool} (leaves : Leaves history kept session)
    (done : (Session.obeyToken (obey (.ofDepth depth) ⟨true, cancellable⟩
        (replayUndo (.ofDepth depth) true 1)) ⟨true, cancellable⟩ token rest).on session =
      (.ok (), after)) : ∃ kept, Leaves history kept after := by
  rcases obeyToken_cases done with ⟨rfl, -⟩ | ⟨parameter, setting, -, -, ends⟩ |
    ⟨command, reached, -, obeyed, ends⟩
  · exact ⟨kept, leaves⟩
  · exact ⟨kept, leaves.beside (beside_setting ends).1⟩
  · suffices ∃ kept, Leaves history kept reached by
      obtain ⟨kept, leaves⟩ := this
      exact ⟨kept, leaves.beside (beside_applied ends).1⟩
    by_cases undoes : command = .undo
    · subst undoes
      exact leaves.undone obeyed
    · by_cases rewrites : command ∈ rewriters
      · exact ⟨[], rewritten rewrites obeyed⟩
      · exact ⟨kept, leaves.unwritten (unwritten_of_obey undoes rewrites obeyed)⟩

theorem dispatch (leaves : Leaves history kept session)
    (done : (Session.dispatch (obey (.ofDepth depth) ⟨true, true⟩
        (replayUndo (.ofDepth depth) true 1)) ⟨true, true⟩ row).on session = (.ok (), after)) :
    ∃ kept, Leaves history kept after := by
  induction row generalizing session kept with
  | nil =>
      cases done
      exact ⟨kept, leaves⟩
  | cons token rest induction =>
      obtain ⟨_, reached, obeyed, others⟩ := ok_of_bind done
      obtain ⟨kept, leaves⟩ := leaves.obeyToken obeyed
      exact induction leaves others

end Leaves

/-- A statement that succeeds leaves a front part of the history it began with and at most one entry. -/
theorem history_of_success {session : Session} {statement : String}
    (done : session.failure statement = none) :
    ∃ kept, Trims session.history kept ∧ ((session.executed statement).history = kept ∨
      ∃ entry, (session.executed statement).history = kept ++ [entry]) := by
  obtain ⟨after, runs, settled⟩ := running_of_success done
  have entered : Leaves session.history session.history (session.enter statement) :=
    ⟨.refl _, .inl ⟨rfl, statement, rfl⟩⟩
  obtain ⟨kept, leaves⟩ := entered.dispatch runs
  rw [settled]
  exact ⟨kept, leaves.trims, (leaves.ends.imp And.right And.right).symm⟩

end Session

end PaperFolding
