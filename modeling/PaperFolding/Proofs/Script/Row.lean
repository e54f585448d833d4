import Mathlib.Data.List.Induction
import PaperFolding.Proofs.Script.Scan

/-!
Rows of tokens. What a script is cut into can be written back and is then read as the same tokens.
-/

namespace PaperFolding.Script

/-! ## Cutting at spaces -/

theorem cut_space (front back : List Char) : cut (front ++ ' ' :: back) = cut front ++ cut back :=
  Text.runs_append (by decide) front back

theorem cut_leading (text : List Char) : cut (' ' :: text) = cut text := cut_space [] text

theorem cut_trailing (text : List Char) : cut (text ++ [' ']) = cut text := by
  rw [cut_space]
  exact List.append_nil _

theorem cut_word {word : List Char} (spaceless : ' ' ∉ word) (inhabited : word ≠ []) :
    cut word = [word] := by
  refine Text.runs_of_uncut (fun c among => ?_) inhabited
  rw [decide_eq_false_iff_not]
  rintro rfl
  exact spaceless among

def read (text : List Char) : List (List Char) := cut (scan true false text)

theorem cut_scan_false (text : List Char) : cut (scan false false text) = read text := by
  cases text with
  | nil => rfl
  | cons c text =>
      rcases char_cases c with rfl | rfl | ⟨opening, closing, gapped⟩ | ⟨opening, closing, other⟩
      · rw [scan_bracket_false, read, scan_bracket_true]
        exact cut_leading _
      · rfl
      · rw [scan_gap_false _ _ gapped, read, scan_gap_true _ _ gapped]
        exact cut_leading _
      · rw [read, scan_other _ _ _ opening closing other, scan_other _ _ _ opening closing other]

theorem tokens_eq_read (source : String) :
    tokens source = (read (stripComments false source.toList)).map String.ofList := by
  rw [tokens, flatten_eq_scan, cut_scan_false]

theorem scan_true_start {text back : List Char} : scan true false text ≠ ' ' :: back := by
  induction text with
  | nil => simp
  | cons c text induction =>
      rcases char_cases c with rfl | rfl | ⟨opening, closing, gapped⟩ | ⟨opening, closing, other⟩
      · simp
      · simp
      · rw [scan_gap_true _ _ gapped]
        exact induction
      · rw [scan_other _ _ _ opening closing other]
        intro written
        rw [(List.cons.inj written).1] at other
        cases other

theorem spaceAfter_concat (afterSpace : Bool) (text : List Char) (c : Char) :
    spaceAfter afterSpace (text ++ [c]) = (c = ']' || isGap c) := by
  induction text generalizing afterSpace with
  | nil => rfl
  | cons first text induction => exact induction _

theorem openAfter_append (inBrackets : Bool) (front back : List Char) :
    openAfter inBrackets (front ++ back) = openAfter (openAfter inBrackets front) back := by
  induction front generalizing inBrackets with
  | nil => rfl
  | cons first front induction => exact induction _

theorem scan_of_spaceAfter {text : List Char} (space : spaceAfter true text = true)
    (shut : openAfter false text = false) :
    scan true false text = [] ∨ ∃ written, scan true false text = written ++ [' '] := by
  induction text using List.reverseRecOn with
  | nil => exact .inl rfl
  | append_singleton text c induction =>
      rw [scan_append]
      rcases char_cases c with rfl | rfl | ⟨opening, closing, gapped⟩ | ⟨opening, closing, other⟩
      · rw [spaceAfter_concat] at space
        cases space
      · exact .inr ⟨scan true false text ++ [']'], by simp⟩
      · rw [openAfter_append, openAfter_cons_of_ne opening closing] at shut
        have shut : openAfter false text = false := shut
        cases before : spaceAfter true text with
        | true =>
            rw [scan_gap_true _ _ gapped, scan_nil, List.append_nil]
            exact induction before shut
        | false =>
            rw [scan_gap_false _ _ gapped, shut]
            exact .inr ⟨_, rfl⟩
      · rw [spaceAfter_concat] at space
        simp [closing, other] at space

theorem read_join {front : List Char} (shut : openAfter false front = false) (back : List Char) :
    read (front ++ ' ' :: back) = read front ++ read back := by
  rw [read, scan_append, shut]
  cases space : spaceAfter true front with
  | false =>
      rw [scan_gap_false _ _ rfl]
      exact cut_space _ _
  | true =>
      rw [scan_gap_true _ _ rfl]
      rcases scan_of_spaceAfter space shut with nothing | ⟨written, ends⟩
      · rw [read, nothing]
        rfl
      · rw [read, ends, List.append_assoc, List.singleton_append, cut_space, cut_trailing, read]

/-! ## Tokens that are read back -/

/-- A token that is read back from the text it is written as, in which nothing follows a closing bracket
and no comment begins. -/
structure Legible (token : List Char) : Prop where
  rereads : read (token.map unmark) = [token]
  ends : ∀ {front back}, token = front ++ ']' :: back → back = []
  uncommented : '\x7b' ∉ token

/-- Tokens as they are read from a text: none but the last leaves a bracket open. -/
inductive Row : List (List Char) → Prop where
  | nil : Row []
  | last {token : List Char} (legible : Legible token) : Row [token]
  | cons {token : List Char} {row : List (List Char)} (legible : Legible token)
      (shut : openAfter false (token.map unmark) = false) (others : Row row) : Row (token :: row)

theorem uncommented_scan {afterSpace inBrackets : Bool} {text : List Char}
    (uncommented : '\x7b' ∉ text) : '\x7b' ∉ scan afterSpace inBrackets text := by
  intro written
  rcases mem_scan written with ⟨among, -⟩ | space | ⟨mark, -⟩
  · exact uncommented among
  · cases space
  · cases mark

theorem read_unmark_of_scan {text token : List Char} (unmarked : spaceMark ∉ text)
    (spaceless : ' ' ∉ token) (inhabited : token ≠ [])
    (written : scan true false text = token ∨ scan true false text = token ++ [' ']) :
    read (token.map unmark) = [token] := by
  have again := scan_unmark_scan true false text unmarked
  rcases written with written | written
  · rw [written] at again
    rw [read, again, cut_word spaceless inhabited]
  · rw [written, List.map_append, scan_append] at again
    have behind : read (token.map unmark) = cut (token ++ [' ']) := by
      cases space : spaceAfter true (token.map unmark) with
      | true =>
          rw [space] at again
          have again : scan true false (token.map unmark) ++ [] = token ++ [' '] := again
          rw [read, ← again, List.append_nil]
      | false =>
          rw [space] at again
          have again : scan true false (token.map unmark) ++
              [gap (openAfter false (token.map unmark))] = token ++ [' '] := again
          rw [read, (List.append_inj' again rfl).1, cut_trailing]
    rw [behind, cut_trailing, cut_word spaceless inhabited]

/-- The first token is written by a part of the text in front, which leaves no bracket open. -/
theorem exists_front {text token others : List Char} (spaceless : ' ' ∉ token)
    (written : scan true false text = token ++ ' ' :: others) :
    ∃ front rest, text = front ++ rest ∧ front ≠ [] ∧ token ≠ [] ∧
      (scan true false front = token ∨ scan true false front = token ++ [' ']) ∧
      openAfter false token = false ∧ others = scan true false rest := by
  have inhabited : token ≠ [] := by
    rintro rfl
    exact scan_true_start written
  obtain ⟨front, rest, split, wrote, shut, follows⟩ := scan_split spaceless written
  rw [← openAfter_scan true] at shut
  refine ⟨front, rest, split, ?_, inhabited, wrote, ?_, follows⟩
  · rintro rfl
    rcases wrote with wrote | wrote
    · exact inhabited wrote.symm
    · simp at wrote
  · rcases wrote with wrote | wrote
    · rwa [wrote] at shut
    · rwa [wrote, openAfter_append] at shut

theorem ends_of_scan {text token others front back : List Char} (spaceless : ' ' ∉ token)
    (written : scan true false text = token ++ others) (split : token = front ++ ']' :: back) :
    back = [] := by
  subst split
  have behind : scan true false text = front ++ ']' :: (back ++ others) := by simpa using written
  obtain ⟨rest, follows⟩ := scan_closing_followed behind
  cases back with
  | nil => rfl
  | cons c back =>
      obtain ⟨rfl, -⟩ := List.cons.inj follows
      simp at spaceless

theorem read_of_scan {text rest token : List Char} (inhabited : token ≠ []) (spaceless : ' ' ∉ token)
    (written : scan true false text = token ++ ' ' :: scan true false rest) :
    read text = token :: read rest := by
  rw [read, written, cut_space, cut_word spaceless inhabited]
  rfl

theorem exists_first {text token others : List Char} (unmarked : spaceMark ∉ text)
    (uncommented : '\x7b' ∉ text) (spaceless : ' ' ∉ token)
    (written : scan true false text = token ++ ' ' :: others) :
    ∃ front rest, text = front ++ rest ∧ front ≠ [] ∧ read text = token :: read rest ∧
      Legible token ∧ openAfter false (token.map unmark) = false := by
  obtain ⟨front, rest, rfl, consumed, inhabited, reads, shut, rfl⟩ := exists_front spaceless written
  have unmarkedFront : spaceMark ∉ front := fun among =>
    unmarked (List.mem_append_left rest among)
  have plain : '\x7b' ∉ scan true false (front ++ rest) := uncommented_scan uncommented
  rw [written] at plain
  have legible : Legible token :=
    { rereads := read_unmark_of_scan unmarkedFront spaceless inhabited reads
      ends := ends_of_scan spaceless written
      uncommented := fun among => plain (List.mem_append_left _ among) }
  exact ⟨front, rest, rfl, consumed, read_of_scan inhabited spaceless written, legible,
    (openAfter_unmark false token).trans shut⟩

theorem row_read (text : List Char) (unmarked : spaceMark ∉ text) (uncommented : '\x7b' ∉ text) :
    Row (read text) := by
  induction size : text.length using Nat.strongRecOn generalizing text with
  | _ count induction =>
      by_cases space : ' ' ∈ scan true false text
      · obtain ⟨token, others, written, spaceless⟩ := List.eq_append_cons_of_mem space
        obtain ⟨front, rest, rfl, consumed, cuts, legible, shut⟩ :=
          exists_first unmarked uncommented spaceless written
        rw [cuts]
        refine .cons legible shut ?_
        -- What is left of the text is shorter by the first token at least.
        refine induction rest.length ?_ rest ?_ ?_ rfl
        · have longer := List.length_pos_iff.2 consumed
          simp only [List.length_append] at size
          omega
        · exact fun among => unmarked (List.mem_append_right front among)
        · exact fun among => uncommented (List.mem_append_right front among)
      · by_cases inhabited : scan true false text = []
        · rw [read, inhabited]
          exact .nil
        · rw [read, cut_word space inhabited]
          exact .last
            { rereads := read_unmark_of_scan unmarked space inhabited (.inl rfl)
              ends := ends_of_scan space (List.append_nil _).symm
              uncommented := uncommented_scan uncommented }

namespace Row

theorem tail {token : List Char} {row : List (List Char)} (rows : Row (token :: row)) : Row row := by
  cases rows with
  | last => exact .nil
  | cons legible shut others => exact others

theorem legible {row : List (List Char)} (rows : Row row) : ∀ token ∈ row, Legible token := by
  induction rows with
  | nil => simp
  | last legible => simpa using legible
  | cons legible shut others induction => exact List.forall_mem_cons.2 ⟨legible, induction⟩

theorem shut_head {token : List Char} {row : List (List Char)} (rows : Row (token :: row))
    (more : row ≠ []) : openAfter false (token.map unmark) = false := by
  cases rows with
  | last => exact absurd rfl more
  | cons legible shut others => exact shut

theorem shut {front back : List (List Char)} (rows : Row (front ++ back)) (more : back ≠ []) :
    ∀ token ∈ front, openAfter false (token.map unmark) = false := by
  induction front with
  | nil => simp
  | cons token front induction =>
      exact List.forall_mem_cons.2
        ⟨rows.shut_head (List.append_ne_nil_of_right_ne_nil front more), induction rows.tail⟩

end Row

theorem read_intercalate {texts : List (List Char)}
    (shut : ∀ text ∈ texts, openAfter false text = false) (last : List Char) :
    read (List.intercalate [' '] (texts ++ [last])) = texts.flatMap read ++ read last := by
  induction texts with
  | nil => simp
  | cons text texts induction =>
      obtain ⟨first, others⟩ := List.forall_mem_cons.1 shut
      rw [List.flatMap_cons, List.append_assoc, ← induction others, ← read_join first]
      cases texts <;> simp [List.intercalate]

theorem read_restore {row : List (List Char)} (rows : Row row) :
    read (List.intercalate [' '] (row.map fun token => token.map unmark)) = row := by
  induction rows with
  | nil => rfl
  | last legible => simpa [List.intercalate] using legible.rereads
  | @cons token row legible shut others induction =>
      cases row with
      | nil => simpa [List.intercalate] using legible.rereads
      | cons next row =>
          have joined : List.intercalate [' '] ((token :: next :: row).map fun token =>
              token.map unmark) = token.map unmark ++ ' ' ::
                List.intercalate [' '] ((next :: row).map fun token => token.map unmark) := by
            simp [List.intercalate]
          rw [joined, read_join shut, induction, legible.rereads, List.singleton_append]

/-! ## The tokens of a script -/

theorem mem_stripComments {inside : Bool} {text : List Char} {c : Char}
    (among : c ∈ stripComments inside text) : c ∈ text ∧ c ≠ '\x7b' := by
  induction text generalizing inside with
  | nil => simp at among
  | cons first text induction =>
      rw [stripComments] at among
      split at among
      · exact ⟨List.mem_cons_of_mem first (induction among).1, (induction among).2⟩
      · rename_i plain
        simp only [Bool.or_eq_true, decide_eq_true_eq, not_or] at plain
        rcases List.mem_cons.1 among with rfl | later
        · exact ⟨List.mem_cons_self .., plain.2⟩
        · exact ⟨List.mem_cons_of_mem first (induction later).1, (induction later).2⟩

theorem stripComments_of_notMem {text : List Char} (uncommented : '\x7b' ∉ text) :
    stripComments false text = text := by
  induction text with
  | nil => rfl
  | cons c text induction =>
      have other : c ≠ '\x7b' := (List.ne_of_not_mem_cons uncommented).symm
      simp [stripComments, other, induction (List.not_mem_of_not_mem_cons uncommented)]

theorem tokens_of_uncommented {source : String} (uncommented : '\x7b' ∉ source.toList) :
    tokens source = (read source.toList).map String.ofList := by
  rw [tokens_eq_read, stripComments_of_notMem uncommented]

theorem row_tokens {source : String} (unmarked : spaceMark ∉ source.toList) :
    Row ((tokens source).map String.toList) := by
  have back : (tokens source).map String.toList = read (stripComments false source.toList) := by
    rw [tokens_eq_read, List.map_map]
    simp [Function.comp_def]
  rw [back]
  exact row_read _ (fun among => unmarked (mem_stripComments among).1)
    fun among => (mem_stripComments among).2 rfl

end PaperFolding.Script
