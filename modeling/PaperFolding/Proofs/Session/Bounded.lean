import PaperFolding.Proofs.Session.Redoing

/-!
Rolling back with an engine that keeps only so many operations to be undone. How far to go back is told
by how many operations the engine is ready to undo, so what is done beyond its bound goes unnoticed.
-/

namespace PaperFolding

open Script

/-- The engine that takes back at most so many operations in a row. -/
def Engine.bounded (limit : Nat) : Engine :=
  departing { Departure.none with undoLimit := some limit }

namespace Session

variable {session : Session} {statement : String} {ledger : Ledger} {limit target : Nat}
  {fault : Fault}

theorem depth_bounded (bounded : session.engine = .bounded limit)
    (held : session.model = some ledger) : session.depth = some (min ledger.depth limit) := by
  rw [depth, held, bounded]
  rfl

theorem rewind_bounded (bounded : session.engine = .bounded limit)
    (held : session.model = some ledger) (below : target ≤ min ledger.depth limit) :
    (session.rewind target).model =
      some (ledger.windTo (ledger.depth - (min ledger.depth limit - target))) := by
  have whole : session.model = some (ledger.windTo ledger.depth) := by
    rw [held, ledger.windTo_depth]
  rw [rewind, depth_bounded bounded held]
  dsimp only
  split
  · refine repeating_undoSheet _ _ _ session (congrArg Engine.undo bounded) ?_ ?_
    · rw [whole]
      congr 2
      omega
    · have := ledger.depth_le_length_line
      omega
  · rename_i reached
    have none : min ledger.depth limit - target = 0 := by omega
    have none' : target - min ledger.depth limit = 0 := by omega
    rw [none, none', Nat.sub_zero, repeating, whole]

theorem model_of_keeps_bounded {course : Course (.bounded limit)} {kept : Ledger} {ended : Session}
    (keeps : Keeps course (session.enter statement) ended)
    (bounded : session.engine = .bounded limit) (held : session.model = some ledger)
    (found : ended.keptPaper = some kept) (longer : ledger.depth ≤ kept.depth) :
    (ended.rollback session.begin).model =
      some (kept.windTo (kept.depth - (min kept.depth limit - min ledger.depth limit))) := by
  have same : (ended.returning session.history.length).engine = .bounded limit :=
    keeps.sameEngine.trans bounded
  show ((ended.returning session.history.length).rewinding session.depth).model = _
  rw [depth_bounded bounded held]
  exact rewind_bounded same found (by omega)

theorem take_eq_iff_of_front {records front : List Record} {count : Nat}
    (leads : front <+: records) (inside : count ≤ records.length) :
    records.take count = front ↔ count = front.length := by
  constructor
  · rintro rfl
    rw [List.length_take_of_le inside]
  · rintro rfl
    exact (List.prefix_iff_eq_take.1 leads).symm

/-- An engine with a bound goes back to the records from before if and only if the statement has recorded
nothing on the paper it began with, or no more in all than the engine can undo. -/
theorem executed_failure_bounded_iff (bounded : session.engine = .bounded limit)
    (failed : session.failure statement = some fault)
    (forward : ∀ text ∈ statement :: session.scriptsLoaded statement,
      Command.undo.name ∉ tokens text ∧ Command.redo.name ∉ tokens text) :
    (session.executed statement).model.map Ledger.content = session.model.map Ledger.content ↔
      ∀ ledger ∈ session.model, ∀ kept ∈ (session.running statement).2.keptPaper,
        kept.depth = ledger.depth ∨ kept.depth ≤ limit := by
  have keeps : Keeps (.recording rfl : Course (.bounded limit)) (session.enter statement)
      (session.running statement).2 :=
    keeps_running fun text among =>
      Course.admits_of_forward _ (forward text among).1 (forward text among).2
  rw [executed_rollback failed, settle_model]
  cases held : session.model with
  | none => simp [model_of_keeps_none keeps bounded held]
  | some ledger =>
      have reached := keptPaper_of_keeps keeps bounded held
      obtain ⟨kept, found, leads⟩ := reached
      obtain ⟨outline, front⟩ := Course.prefix_of_recording leads
      have longer : ledger.depth ≤ kept.depth := front.length_le
      have inside : kept.depth - (min kept.depth limit - min ledger.depth limit) ≤ kept.depth :=
        Nat.sub_le _ _
      rw [model_of_keeps_bounded keeps bounded held found longer, found, Option.map_some,
        Option.map_some, kept.windTo_content inside, outline]
      simp only [Ledger.content, Option.some.injEq, Prod.mk.injEq, true_and, Option.mem_some,
        forall_eq']
      rw [take_eq_iff_of_front front inside]
      show kept.depth - _ = ledger.depth ↔ _
      omega

/-- A session with one fold, whose engine undoes so many at most. -/
def foldedWithin (limit : Nat) : Session :=
  ((ofSettings .standard (.bounded limit) (.quiet (.empty []) .absent)).executed
    "paper [square] new").executed "plane [1 0 0] [1 0 0] reflect"

theorem foldedWithin_engine (limit : Nat) : (foldedWithin limit).engine = .bounded limit := by
  rw [foldedWithin, executed_engine, executed_engine]
  rfl

theorem executed_failure_bounded_iff_two :
    (foldedWithin 2).failure "plane [2 0 0] [1 0 0] reflect cut" = some (.missing (.plane "cut")) ∧
      ((foldedWithin 2).executed "plane [2 0 0] [1 0 0] reflect cut").model.map Ledger.content =
        (foldedWithin 2).model.map Ledger.content := by
  have failed : (foldedWithin 2).failure "plane [2 0 0] [1 0 0] reflect cut" =
      some (.missing (.plane "cut")) := by decide +kernel
  have back := executed_failure_bounded_iff (foldedWithin_engine 2) failed (by decide +kernel)
  exact ⟨failed, back.2 (by decide +kernel)⟩

/-- With the first fold the engine is as ready to undo as it ever is, and the second one stays. -/
theorem failed_fold_stays :
    (foldedWithin 1).failure "plane [2 0 0] [1 0 0] reflect cut" = some (.missing (.plane "cut")) ∧
      ((foldedWithin 1).executed "plane [2 0 0] [1 0 0] reflect cut").model.map Ledger.depth =
        some 2 ∧
      (foldedWithin 1).model.map Ledger.depth = some 1 := by
  decide +kernel

end Session

end PaperFolding
