import PaperFolding.Session.Sheet

/-!
A ledger as a place in its line of records: undoing and redoing move the place and keep the line, and
rewinding a plain sheet goes to any place of it.
-/

namespace PaperFolding

namespace Ledger

/-- What is to be seen of a sheet: its outline and the records in effect. -/
def content (ledger : Ledger) : Outline × List Record := (ledger.outline, ledger.journal)

def windTo (ledger : Ledger) (depth : Nat) : Ledger :=
  ⟨ledger.outline, ledger.line.take depth, ledger.line.drop depth⟩

theorem windTo_depth (ledger : Ledger) : ledger.windTo ledger.depth = ledger := by
  simp [windTo, line, depth]

theorem length_take_journal (ledger : Ledger) {depth : Nat} (inside : depth ≤ ledger.depth) :
    (ledger.journal.take depth).length = depth := List.length_take_of_le inside

theorem windTo_journal (ledger : Ledger) {depth : Nat} (inside : depth ≤ ledger.depth) :
    (ledger.windTo depth).journal = ledger.journal.take depth := by
  rw [windTo, line, List.take_append_of_le_length inside]

theorem windTo_content (ledger : Ledger) {depth : Nat} (inside : depth ≤ ledger.depth) :
    (ledger.windTo depth).content = (ledger.outline, ledger.journal.take depth) := by
  rw [content, ledger.windTo_journal inside]
  rfl

theorem windTo_windTo (ledger : Ledger) (depth other : Nat) :
    (ledger.windTo depth).windTo other = ledger.windTo other := by
  simp only [windTo, line, List.take_append_drop]

theorem depth_windTo (ledger : Ledger) {depth : Nat} (inside : depth ≤ ledger.depth) :
    (ledger.windTo depth).depth = depth := by
  rw [Ledger.depth, ledger.windTo_journal inside, ledger.length_take_journal inside]

theorem redo_journal {ledger redone : Ledger} (again : ledger.redo = .ok redone) :
    ∃ record, redone.journal = ledger.journal ++ [record] := by
  unfold redo at again
  split at again
  · contradiction
  · rename_i next _ _
    cases again
    exact ⟨next, rfl⟩

theorem eq_of_apply {ledger folded : Ledger} {record : Record}
    (applied : ledger.apply record = .ok folded) :
    folded = ⟨ledger.outline, ledger.journal ++ [record], []⟩ := by
  obtain ⟨journal, undone⟩ := apply_journal applied
  cases folded
  cases journal
  cases undone
  cases apply_outline applied
  rfl

theorem depth_le_length_line (ledger : Ledger) : ledger.depth ≤ ledger.line.length := by
  simp [depth, line]

theorem undo_windTo (ledger : Ledger) {depth : Nat} (inside : depth < ledger.line.length) :
    (ledger.windTo (depth + 1)).undo = .ok (ledger.windTo depth) := by
  have last : (ledger.line.take (depth + 1)).getLast? = some ledger.line[depth] := by
    rw [List.take_succ_eq_append_getElem inside, List.getLast?_concat]
  simp only [undo, windTo, last, Except.ok.injEq, Ledger.mk.injEq, true_and]
  constructor
  · rw [List.take_succ_eq_append_getElem inside, List.dropLast_concat]
  · exact List.getElem_cons_drop inside

theorem undo_of_depth (ledger : Ledger) (more : 0 < ledger.depth) :
    ledger.undo = .ok (ledger.windTo (ledger.depth - 1)) := by
  have inside : ledger.depth - 1 < ledger.line.length := by
    have := ledger.depth_le_length_line
    omega
  have taken := ledger.undo_windTo inside
  rwa [Nat.sub_add_cancel more, ledger.windTo_depth] at taken

theorem redo_windTo (ledger : Ledger) {depth : Nat} (inside : depth < ledger.line.length) :
    (ledger.windTo depth).redo = .ok (ledger.windTo (depth + 1)) := by
  simp only [redo, windTo, List.drop_eq_getElem_cons inside]
  rw [List.take_succ_eq_append_getElem inside]

theorem redo_windTo_end (ledger : Ledger) {depth : Nat} (beyond : ledger.line.length ≤ depth) :
    (ledger.windTo depth).redo = .error .nothingToRedo := by
  simp [redo, windTo, List.drop_eq_nil_of_le beyond]

theorem windTo_beyond (ledger : Ledger) {depth other : Nat} (beyond : ledger.line.length ≤ depth)
    (farther : depth ≤ other) : ledger.windTo depth = ledger.windTo other := by
  have last : ledger.line.length ≤ other := Nat.le_trans beyond farther
  simp only [windTo, List.take_of_length_le beyond, List.take_of_length_le last,
    List.drop_eq_nil_of_le beyond, List.drop_eq_nil_of_le last]

end Ledger

namespace Session

theorem repeating_undoSheet {ledger : Ledger} (word : String) (count depth : Nat)
    (session : Session) (undoes : session.engine.undo = Ledger.undo)
    (held : session.model = some (ledger.windTo (depth + count)))
    (inside : depth + count ≤ ledger.line.length) :
    (repeating (undoSheet word) count session).model = some (ledger.windTo depth) := by
  induction count generalizing session with
  | zero => exact held
  | succ count induction =>
      have below : depth + count < ledger.line.length := by omega
      have taken : (ledger.windTo (depth + (count + 1))).undo = .ok (ledger.windTo (depth + count)) :=
        ledger.undo_windTo below
      have step : (undoSheet word).on session =
          (.ok (), (session.noting .undo).holding (ledger.windTo (depth + count))) := by
        simp only [undoSheet, on_fold, held, undoes, taken]
      rw [repeating, step]
      exact induction _ undoes rfl (by omega)

theorem repeating_redoSheet {ledger : Ledger} (word : String) (count depth : Nat)
    (session : Session) (plain : session.engine = .plain)
    (held : session.model = some (ledger.windTo depth)) :
    (repeating (redoSheet word) count session).model = some (ledger.windTo (depth + count)) := by
  induction count generalizing depth session with
  | zero => exact held
  | succ count induction =>
      by_cases inside : depth < ledger.line.length
      · have taken : Engine.plain.redo (ledger.windTo depth) = .ok (ledger.windTo (depth + 1)) :=
          ledger.redo_windTo inside
        have step : (redoSheet word).on session =
            (.ok (), (session.noting .redo).holding (ledger.windTo (depth + 1))) := by
          simp only [redoSheet, on_fold, held, plain, taken]
        rw [repeating, step, Nat.add_comm count, ← Nat.add_assoc]
        exact induction (depth + 1) _ plain rfl
      · have refused : Engine.plain.redo (ledger.windTo depth) = .error .nothingToRedo :=
          ledger.redo_windTo_end (by omega)
        have step : (redoSheet word).on session =
            (.error (.sheet .nothingToRedo), session.noting .redo) := by
          simp only [redoSheet, on_fold, held, plain, refused]
        rw [repeating, step, ← ledger.windTo_beyond (by omega) (Nat.le_add_right depth (count + 1))]
        exact held

/-- On plain ledgers rewinding goes straight to a place in the line, or to its end. -/
theorem rewind_plain (target : Nat) (session : Session) (plain : session.engine = .plain) :
    (session.rewind target).model = session.model.map fun ledger => ledger.windTo target := by
  cases held : session.model with
  | none => simp [rewind, depth, held]
  | some ledger =>
      have current : session.depth = some ledger.depth := by
        simp [depth, held, plain, Engine.plain]
      have whole : session.model = some (ledger.windTo ledger.depth) := by
        rw [held, ledger.windTo_depth]
      simp only [rewind, current, Option.map_some]
      split
      · rename_i below
        refine repeating_undoSheet _ _ target session (congrArg Engine.undo plain) ?_ ?_
        · rw [whole]
          congr 2
          omega
        · have := ledger.depth_le_length_line
          omega
      · rename_i above
        rw [repeating_redoSheet _ _ ledger.depth session plain whole]
        congr 2
        omega

end Session

end PaperFolding
