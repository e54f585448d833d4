import PaperFolding.Proofs.Session.Entry

/-!
Tokens that are printed and read again. A mark is printed as a space, whether it stands for one or was typed.
So a row of tokens is read again exactly if every mark in it stands where a scan would write it: inside of
brackets, and one at a time.
-/

namespace PaperFolding.Script

/-! ## Where marks stand -/

/-- A token whose marks all stand inside of brackets, none directly behind another. -/
structure WellMarked (token : List Char) : Prop where
  inside : ∀ front back, token = front ++ spaceMark :: back → openAfter false front = true
  apart : ¬ [spaceMark, spaceMark] <:+: token

def marksFit (inBrackets afterMark : Bool) : List Char → Bool
  | [] => true
  | c :: text =>
      if c = spaceMark then inBrackets && !afterMark && marksFit inBrackets true text
      else marksFit (c = '[' || (c ≠ ']' && inBrackets)) false text

section MarksFit

variable {inBrackets afterMark : Bool} {c : Char} {text : List Char}

@[simp] theorem marksFit_mark :
    marksFit inBrackets afterMark (spaceMark :: text) =
      (inBrackets && !afterMark && marksFit inBrackets true text) := rfl

@[simp] theorem marksFit_opening :
    marksFit inBrackets afterMark ('[' :: text) = marksFit true false text := rfl

@[simp] theorem marksFit_closing :
    marksFit inBrackets afterMark (']' :: ' ' :: text) = marksFit false false text := rfl

@[simp] theorem marksFit_gap :
    marksFit inBrackets false (gap inBrackets :: text) = marksFit inBrackets inBrackets text := by
  cases inBrackets <;> rfl

theorem marksFit_other (other : c ≠ spaceMark) :
    marksFit inBrackets afterMark (c :: text) = marksFit (openAfter inBrackets [c]) false text := by
  rw [marksFit, if_neg other]
  rfl

theorem forall_split_cons {holds : List Char → Prop} :
    (∀ front back, c :: text = front ++ spaceMark :: back → holds front) ↔
      (c = spaceMark → holds []) ∧
        ∀ front back, text = front ++ spaceMark :: back → holds (c :: front) := by
  constructor
  · intro all
    constructor
    · rintro rfl
      exact all [] text rfl
    · rintro front back rfl
      exact all (c :: front) back rfl
  · rintro ⟨first, later⟩ front back split
    cases front with
    | nil => exact first (List.cons.inj split).1
    | cons head front =>
        obtain ⟨rfl, rest⟩ := List.cons.inj split
        exact later front back rest

theorem marksFit_iff :
    marksFit inBrackets afterMark text = true ↔
      (∀ front back, text = front ++ spaceMark :: back → openAfter inBrackets front = true) ∧
        ¬ [spaceMark, spaceMark] <:+: text ∧ (afterMark = true → text.head? ≠ some spaceMark) := by
  induction text generalizing inBrackets afterMark with
  | nil => simp [marksFit]
  | cons c text induction =>
      rw [forall_split_cons, List.infix_cons_iff, List.cons_prefix_cons]
      by_cases own : c = spaceMark
      · subst own
        have same (front : List Char) :
            openAfter inBrackets (spaceMark :: front) = openAfter inBrackets front :=
          openAfter_cons_of_ne (by decide) (by decide) _ _
        have begins : [spaceMark] <+: text ↔ text.head? = some spaceMark := by
          cases text with
          | nil => simp
          | cons next text => simp [List.cons_prefix_cons, eq_comm]
        simp only [marksFit_mark, Bool.and_eq_true, Bool.not_eq_true', induction, same, begins]
        cases afterMark with
        | true => simp
        | false =>
            simp only [openAfter]
            tauto
      · simp only [marksFit_other own, induction, openAfter]
        simp [own, Ne.symm own]

end MarksFit

theorem wellMarked_iff {token : List Char} : WellMarked token ↔ marksFit false false token = true := by
  rw [marksFit_iff]
  exact ⟨fun well => ⟨well.inside, well.apart, by simp⟩, fun fits => ⟨fits.1, fits.2.1⟩⟩

instance (token : List Char) : Decidable (WellMarked token) :=
  decidable_of_iff _ wellMarked_iff.symm

/-! ## Scans with the marks taken off -/

theorem marksFit_scan {afterSpace inBrackets afterMark : Bool} {text : List Char}
    (unmarked : spaceMark ∉ text) (spaced : afterMark = true → afterSpace = true) :
    marksFit inBrackets afterMark (scan afterSpace inBrackets text) = true := by
  induction text generalizing afterSpace inBrackets afterMark with
  | nil => rfl
  | cons c text induction =>
      have own : c ≠ spaceMark := (List.ne_of_not_mem_cons unmarked).symm
      have others : spaceMark ∉ text := List.not_mem_of_not_mem_cons unmarked
      have fresh : afterSpace = false → afterMark = false := by
        rintro rfl
        simpa using spaced
      rcases char_cases c with rfl | rfl | ⟨opening, closing, gapped⟩ | ⟨opening, closing, other⟩
      · cases afterSpace with
        | true =>
            rw [scan_bracket_true, marksFit_opening]
            exact induction others nofun
        | false =>
            rw [scan_bracket_false, fresh rfl, marksFit_gap, marksFit_opening]
            exact induction others nofun
      · rw [scan_closing, marksFit_closing]
        exact induction others nofun
      · cases afterSpace with
        | true =>
            rw [scan_gap_true _ _ gapped]
            exact induction others fun _ => rfl
        | false =>
            rw [scan_gap_false _ _ gapped, fresh rfl, marksFit_gap]
            exact induction others fun _ => rfl
      · rw [scan_other _ _ _ opening closing other, marksFit_other own,
          openAfter_cons_of_ne opening closing]
        exact induction others nofun

theorem scan_behind_mark {text : List Char}
    (fits : marksFit true true (scan false true text) = true) :
    scan true true text = scan false true text := by
  cases text with
  | nil => rfl
  | cons c text =>
      rcases char_cases c with rfl | rfl | ⟨opening, closing, gapped⟩ | ⟨opening, closing, other⟩
      · cases fits
      · rfl
      · rw [scan_gap_false _ _ gapped] at fits
        cases fits
      · rw [scan_other _ _ _ opening closing other, scan_other _ _ _ opening closing other]

/-- A typed mark that stands where a scan would write one can be typed as a space. -/
theorem scan_unmark {afterSpace inBrackets : Bool} {text : List Char}
    (fits : marksFit inBrackets (afterSpace && inBrackets) (scan afterSpace inBrackets text) = true) :
    scan afterSpace inBrackets (text.map unmark) = scan afterSpace inBrackets text := by
  induction text generalizing afterSpace inBrackets with
  | nil => rfl
  | cons c text induction =>
      have opened : unmark '[' = '[' := rfl
      have closed : unmark ']' = ']' := rfl
      rw [List.map_cons]
      rcases char_cases c with rfl | rfl | ⟨opening, closing, gapped⟩ | ⟨opening, closing, other⟩
      · rw [opened]
        cases afterSpace with
        | true =>
            rw [scan_bracket_true, marksFit_opening] at fits
            rw [scan_bracket_true, scan_bracket_true, induction fits]
        | false =>
            rw [scan_bracket_false, Bool.false_and, marksFit_gap, marksFit_opening] at fits
            rw [scan_bracket_false, scan_bracket_false, induction fits]
      · rw [scan_closing, marksFit_closing] at fits
        rw [closed, scan_closing, scan_closing, induction fits]
      · have own : c ≠ spaceMark := by
          rintro rfl
          cases gapped
        rw [unmark_of_ne own]
        cases afterSpace with
        | true =>
            rw [scan_gap_true _ _ gapped] at fits
            rw [scan_gap_true _ _ gapped, scan_gap_true _ _ gapped, induction fits]
        | false =>
            rw [scan_gap_false _ _ gapped, Bool.false_and, marksFit_gap] at fits
            rw [scan_gap_false _ _ gapped, scan_gap_false _ _ gapped, induction fits]
      · rw [scan_other _ _ _ opening closing other] at fits ⊢
        by_cases own : c = spaceMark
        · subst own
          have space : unmark spaceMark = ' ' := rfl
          rw [marksFit_mark, Bool.and_eq_true, Bool.and_eq_true, Bool.not_eq_true'] at fits
          obtain ⟨⟨rfl, alone⟩, behind⟩ := fits
          rw [Bool.and_true] at alone
          subst alone
          have narrow := scan_behind_mark behind
          rw [← narrow] at behind
          rw [space, scan_gap_false _ _ rfl, induction behind, narrow]
          rfl
        · rw [marksFit_other own, openAfter_cons_of_ne opening closing] at fits
          rw [unmark_of_ne own, scan_other _ _ _ opening closing other, induction fits]

/-! ## Rows of tokens, taken from the end of a text -/

/-- How a text is cut into tokens: nothing is written, or one token only, or one up to a space outside of
brackets, behind which the rest of the text is cut. -/
inductive Cutting : List Char → List (List Char) → Prop where
  | nothing {text : List Char} (written : scan true false text = []) : Cutting text []
  | last {text : List Char} (inhabited : scan true false text ≠ [])
      (spaceless : ' ' ∉ scan true false text) : Cutting text [scan true false text]
  | first {token front rest : List Char} {row : List (List Char)} (inhabited : token ≠ [])
      (spaceless : ' ' ∉ token) (shut : openAfter false token = false)
      (written : scan true false (front ++ rest) = token ++ ' ' :: scan true false rest)
      (others : Cutting rest row) : Cutting (front ++ rest) (token :: row)

theorem Cutting.read_eq {text : List Char} {row : List (List Char)} (cutting : Cutting text row) :
    read text = row := by
  induction cutting with
  | nothing written =>
      rw [read, written]
      rfl
  | last inhabited spaceless => exact cut_word spaceless inhabited
  | first inhabited spaceless shut written others induction =>
      rw [read_of_scan inhabited spaceless written, induction]

theorem exists_cutting (text : List Char) : ∃ row, Cutting text row := by
  induction size : text.length using Nat.strongRecOn generalizing text with
  | _ count induction =>
      by_cases space : ' ' ∈ scan true false text
      · obtain ⟨token, others, written, spaceless⟩ := List.eq_append_cons_of_mem space
        obtain ⟨front, rest, rfl, consumed, inhabited, -, shut, rfl⟩ :=
          exists_front spaceless written
        have longer := List.length_pos_iff.2 consumed
        rw [List.length_append] at size
        obtain ⟨row, cutting⟩ := induction rest.length (by omega) rest rfl
        exact ⟨token :: row, .first inhabited spaceless shut written cutting⟩
      · by_cases inhabited : scan true false text = []
        · exact ⟨[], .nothing inhabited⟩
        · exact ⟨_, .last inhabited space⟩

theorem cutting_read (text : List Char) : Cutting text (read text) := by
  obtain ⟨row, cutting⟩ := exists_cutting text
  rwa [cutting.read_eq]

/-- The last tokens of a text are read from its last part. -/
theorem Cutting.exists_rest {text : List Char} {row whole : List (List Char)}
    (cutting : Cutting text whole) (suffix : row <:+ whole) :
    ∃ front rest, text = front ++ rest ∧ Cutting rest row := by
  induction cutting with
  | @nothing text written =>
      obtain rfl := List.suffix_nil.1 suffix
      exact ⟨[], text, rfl, .nothing written⟩
  | @last text inhabited spaceless =>
      rcases List.suffix_cons_iff.1 suffix with rfl | none
      · exact ⟨[], text, rfl, .last inhabited spaceless⟩
      · obtain rfl := List.suffix_nil.1 none
        exact ⟨text, [], (List.append_nil text).symm, .nothing rfl⟩
  | @first token front rest _ inhabited spaceless shut written others induction =>
      rcases List.suffix_cons_iff.1 suffix with rfl | later
      · exact ⟨[], front ++ rest, rfl, .first inhabited spaceless shut written others⟩
      · obtain ⟨middle, last, rfl, cutting⟩ := induction later
        exact ⟨front ++ middle, last, (List.append_assoc ..).symm, cutting⟩

theorem marksFit_space {inBrackets afterMark : Bool} (front back : List Char) :
    marksFit inBrackets afterMark (front ++ ' ' :: back) =
      (marksFit inBrackets afterMark front && marksFit (openAfter inBrackets front) false back) := by
  induction front generalizing inBrackets afterMark with
  | nil => rfl
  | cons c front induction =>
      rw [List.cons_append]
      by_cases own : c = spaceMark
      · subst own
        rw [marksFit_mark, marksFit_mark, induction, ← Bool.and_assoc,
          openAfter_cons_of_ne (by decide) (by decide)]
      · rw [marksFit_other own, marksFit_other own, induction]
        rfl

theorem Cutting.marksFit {text : List Char} {row : List (List Char)} (cutting : Cutting text row)
    (well : ∀ token ∈ row, WellMarked token) : marksFit false false (scan true false text) = true := by
  induction cutting with
  | nothing written =>
      rw [written]
      rfl
  | last => exact wellMarked_iff.1 (List.forall_mem_singleton.1 well)
  | first inhabited spaceless shut written others induction =>
      obtain ⟨here, later⟩ := List.forall_mem_cons.1 well
      rw [written, marksFit_space, wellMarked_iff.1 here, shut, induction later]
      rfl

/-! ## Tokens that are read again -/

theorem unmarked_unmark (text : List Char) : spaceMark ∉ text.map unmark := fun among =>
  (mem_of_mem_unmark (by decide) among).2 rfl

theorem Legible.wellMarked {token : List Char} (legible : Legible token) : WellMarked token := by
  have fits : marksFit false false (scan true false (token.map unmark)) = true :=
    marksFit_scan (unmarked_unmark token) nofun
  have cutting := cutting_read (token.map unmark)
  rw [legible.rereads] at cutting
  rw [wellMarked_iff]
  generalize token.map unmark = text at *
  cases cutting with
  | last => exact fits
  | first inhabited spaceless shut written others =>
      rw [written, marksFit_space, Bool.and_eq_true] at fits
      exact fits.1

theorem unmarked_restore (row : List String) : spaceMark ∉ (restore row).toList := by
  rw [toList_restore]
  intro among
  rcases mem_intercalate among with space | ⟨text, inside, here⟩
  · cases space
  · obtain ⟨token, -, rfl⟩ := List.mem_map.1 inside
    exact unmarked_unmark token here

theorem Cutting.legible {text : List Char} {row : List (List Char)} (cutting : Cutting text row)
    (uncommented : '\x7b' ∉ text) (well : ∀ token ∈ row, WellMarked token) : Row row := by
  have same : scan true false (text.map unmark) = scan true false text :=
    scan_unmark (cutting.marksFit well)
  have reads : read (text.map unmark) = row := by rw [read, same, ← cutting.read_eq, read]
  rw [← reads]
  exact row_read _ (unmarked_unmark text) fun among =>
    uncommented (mem_of_mem_unmark (by decide) among).1

theorem rereads_of_wellMarked {source : String} {row : List String} (suffix : row <:+ tokens source)
    (well : ∀ token ∈ row, WellMarked token.toList) : tokens (restore row) = row := by
  rw [tokens_eq_read] at suffix
  have chars : row.map String.toList <:+ read (stripComments false source.toList) := by
    have kept := suffix.map String.toList
    rw [List.map_map] at kept
    simpa [Function.comp_def] using kept
  obtain ⟨front, rest, split, cutting⟩ := (cutting_read _).exists_rest chars
  have uncommented : '\x7b' ∉ rest := by
    intro among
    have kept : '\x7b' ∈ stripComments false source.toList := by
      rw [split]
      exact List.mem_append_right front among
    exact (mem_stripComments kept).2 rfl
  refine tokens_restore (cutting.legible uncommented fun token among => ?_)
  obtain ⟨word, inside, rfl⟩ := List.mem_map.1 among
  exact well word inside

theorem wellMarked_of_unmarked {source token : String} (unmarked : spaceMark ∉ source.toList)
    (among : token ∈ tokens source) : WellMarked token.toList :=
  ((row_tokens unmarked).legible _ (List.mem_map_of_mem among)).wellMarked

/-- What is left of a script behind some of its tokens can be printed and is read again as the same tokens,
exactly if every mark in it stands inside of brackets and by itself. In a script without typed marks all of
them do. -/
theorem restored_rereads_iff {source : String} {row : List String}
    (suffix : row <:+ tokens source) :
    (tokens (restore row) = row ↔ ∀ token ∈ row, WellMarked token.toList) ∧
      (spaceMark ∉ source.toList → tokens (restore row) = row) := by
  refine ⟨⟨fun rereads token among => ?_, rereads_of_wellMarked suffix⟩, fun unmarked => ?_⟩
  · rw [← rereads] at among
    exact wellMarked_of_unmarked (unmarked_restore row) among
  · exact rereads_of_wellMarked suffix fun token among =>
      wellMarked_of_unmarked unmarked (suffix.subset among)

theorem restored_rereads_iff_typed :
    ["[my|file|1]", "x|undo"] <:+ tokens "new filename [my file|1] x|undo" ∧
      (tokens (restore ["[my|file|1]", "x|undo"]) = ["[my|file|1]", "x|undo"] ↔
        ∀ token ∈ ["[my|file|1]", "x|undo"], WellMarked token.toList) ∧
      (spaceMark ∉ "new filename [my file|1] x|undo".toList →
        tokens (restore ["[my|file|1]", "x|undo"]) = ["[my|file|1]", "x|undo"]) := by
  have suffix : ["[my|file|1]", "x|undo"] <:+ tokens "new filename [my file|1] x|undo" := by decide
  exact ⟨suffix, restored_rereads_iff suffix⟩

/-- A mark that is typed outside of brackets is printed as a space, so an unknown word falls apart, and one
part of it may be a command. -/
theorem typed_mark_not_reread :
    ["x|undo"] <:+ tokens "paper [square] new x|undo" ∧
      tokens (restore ["x|undo"]) = ["x", "undo"] := by
  decide

end PaperFolding.Script
