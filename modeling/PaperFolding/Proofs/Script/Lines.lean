import PaperFolding.Proofs.Script.Row

/-!
Scripts of several lines. A line that closes its comments and its brackets is read by itself, whatever
stands on the lines around it.
-/

namespace PaperFolding.Script

/-- Whether a comment is open behind the text. -/
def commentAfter (inside : Bool) : List Char → Bool
  | [] => inside
  | c :: text => commentAfter ((inside || c = '\x7b') && c ≠ '\x7d') text

theorem stripComments_append (inside : Bool) (front back : List Char) :
    stripComments inside (front ++ back) =
      stripComments inside front ++ stripComments (commentAfter inside front) back := by
  induction front generalizing inside with
  | nil => rfl
  | cons c front induction =>
      rw [List.cons_append, stripComments, stripComments, commentAfter]
      split
      · rename_i comment
        rw [induction, comment, Bool.true_and]
      · rename_i text
        rw [Bool.not_eq_true] at text
        rw [induction, text, Bool.false_and, List.cons_append]

theorem scan_gap {c : Char} (gapped : isGap c = true) (afterSpace inBrackets : Bool)
    (text : List Char) :
    scan afterSpace inBrackets (c :: text) = scan afterSpace inBrackets (' ' :: text) := by
  cases afterSpace with
  | true => rw [scan_gap_true _ _ gapped, scan_gap_true _ _ rfl]
  | false => rw [scan_gap_false _ _ gapped, scan_gap_false _ _ rfl]

theorem read_break {c : Char} (gapped : isGap c = true) {front : List Char}
    (shut : openAfter false front = false) (back : List Char) :
    read (front ++ c :: back) = read front ++ read back := by
  rw [← read_join shut, read, scan_append, scan_gap gapped, ← scan_append]
  rfl

/-- A line that leaves no comment and no bracket open. -/
structure Closed (line : String) : Prop where
  comments : commentAfter false line.toList = false
  brackets : openAfter false (stripComments false line.toList) = false

instance (line : String) : Decidable (Closed line) :=
  decidable_of_iff (commentAfter false line.toList = false ∧
      openAfter false (stripComments false line.toList) = false)
    ⟨fun both => ⟨both.1, both.2⟩, fun both => ⟨both.comments, both.brackets⟩⟩

theorem Closed.read_append {line : String} (closed : Closed line) (back : List Char) :
    read (stripComments false (line.toList ++ '\n' :: back)) =
      read (stripComments false line.toList) ++ read (stripComments false back) := by
  have newline : stripComments false ('\n' :: back) = '\n' :: stripComments false back := rfl
  rw [stripComments_append, closed.comments, newline, read_break rfl closed.brackets]

theorem Closed.tokens_append {line : String} (closed : Closed line) (back : String) :
    tokens (line ++ "\n" ++ back) = tokens line ++ tokens back := by
  have newline : "\n".toList = ['\n'] := rfl
  rw [tokens_eq_read, String.toList_append, String.toList_append, newline, List.append_assoc,
    List.singleton_append, closed.read_append, List.map_append, ← tokens_eq_read, ← tokens_eq_read]

theorem toList_lines {lines : List String} (some : lines ≠ []) :
    (String.intercalate "\n" lines ++ "\n").toList =
      lines.flatMap fun line => line.toList ++ ['\n'] := by
  have newline : "\n".toList = ['\n'] := rfl
  rw [String.toList_append, String.toList_intercalate, newline]
  induction lines with
  | nil => exact absurd rfl some
  | cons line lines induction =>
      cases lines with
      | nil => simp [List.intercalate]
      | cons next lines =>
          rw [List.flatMap_cons, ← induction (List.cons_ne_nil next lines)]
          simp [List.intercalate]

/-- Lines that are closed are read one after the other. -/
theorem tokens_lines {lines : List String} (closed : ∀ line ∈ lines, Closed line) :
    tokens (String.intercalate "\n" lines ++ "\n") = lines.flatMap tokens := by
  by_cases none : lines = []
  · subst none
    decide
  · rw [tokens_eq_read, toList_lines none]
    clear none
    induction lines with
    | nil => rfl
    | cons line lines induction =>
        obtain ⟨here, others⟩ := List.forall_mem_cons.1 closed
        rw [List.flatMap_cons, List.append_assoc, List.singleton_append, here.read_append,
          List.map_append, induction others, ← tokens_eq_read, List.flatMap_cons]

end PaperFolding.Script
