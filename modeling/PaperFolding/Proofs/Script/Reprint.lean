import PaperFolding.Proofs.Script.Row
import PaperFolding.Session.Rebase

/-!
The texts that a rewritten history is made of, and the tokens they are read as.
-/

namespace PaperFolding.Script

/-! ## Plain text -/

/-- A character that a scan takes as it is, and that no comment begins with. -/
def isPlain (c : Char) : Bool :=
  c ≠ '[' && c ≠ ']' && !isGap c && c ≠ spaceMark && c ≠ '\x7b'

theorem isPlain_iff (c : Char) :
    isPlain c = true ↔
      c ≠ '[' ∧ c ≠ ']' ∧ isGap c = false ∧ c ≠ spaceMark ∧ c ≠ '\x7b' := by
  simp [isPlain, and_assoc]

def Plain (text : List Char) : Prop := ∀ c ∈ text, isPlain c = true

instance (text : List Char) : Decidable (Plain text) := List.decidableBAll _ text

namespace Plain

theorem scan_eq {text : List Char} (plain : Plain text) (afterSpace inBrackets : Bool) :
    scan afterSpace inBrackets text = text := by
  refine scan_of_visible (fun c among => ?_) afterSpace inBrackets
  obtain ⟨opening, closing, other, -, -⟩ := (isPlain_iff c).1 (plain c among)
  exact ⟨opening, closing, other⟩

theorem openAfter_eq {text : List Char} (plain : Plain text) (inBrackets : Bool) :
    openAfter inBrackets text = inBrackets := by
  refine openAfter_of_ne (fun c among => ?_) inBrackets
  obtain ⟨opening, closing, -⟩ := (isPlain_iff c).1 (plain c among)
  exact ⟨opening, closing⟩

theorem unmark_eq {text : List Char} (plain : Plain text) : text.map unmark = text := by
  rw [List.map_congr_left (g := id), List.map_id]
  intro c among
  exact unmark_of_ne ((isPlain_iff c).1 (plain c among)).2.2.2.1

theorem spaceless {text : List Char} (plain : Plain text) : ' ' ∉ text := by
  intro among
  cases plain _ among

theorem uncommented {text : List Char} (plain : Plain text) : '\x7b' ∉ text := by
  intro among
  cases plain _ among

theorem read_eq {text : List Char} (plain : Plain text) (inhabited : text ≠ []) :
    read text = [text] := by
  rw [read, plain.scan_eq, cut_word plain.spaceless inhabited]

theorem of_prefix {front text : List Char} (plain : Plain text) (leads : front <+: text) :
    Plain front := fun c among => plain c (leads.subset among)

end Plain

/-! ## Tokens in front of other tokens -/

theorem openAfter_true_of_notMem {text : List Char} (unclosed : ']' ∉ text) :
    openAfter true text = true := by
  induction text with
  | nil => rfl
  | cons c text induction =>
      have other : c ≠ ']' := (List.ne_of_not_mem_cons unclosed).symm
      have rest := induction (List.not_mem_of_not_mem_cons unclosed)
      simp [openAfter, other, rest]

theorem openAfter_of_mem {text : List Char} (opened : '[' ∈ text) (unclosed : ']' ∉ text)
    (inBrackets : Bool) : openAfter inBrackets text = true := by
  obtain ⟨front, back, rfl⟩ := List.append_of_mem opened
  rw [openAfter_append]
  exact openAfter_true_of_notMem fun among =>
    unclosed (List.mem_append_right front (List.mem_cons_of_mem _ among))

theorem mem_of_mem_unmark {c : Char} {text : List Char} (space : c ≠ ' ')
    (among : c ∈ text.map unmark) : c ∈ text ∧ c ≠ spaceMark := by
  obtain ⟨original, inside, same⟩ := List.mem_map.1 among
  unfold unmark at same
  split at same
  · exact absurd same.symm space
  · rename_i other
    subst same
    exact ⟨inside, other⟩

theorem Legible.plain_or_closed {token : List Char} (legible : Legible token)
    (shut : openAfter false (token.map unmark) = false) :
    Plain token ∨ ∃ front, token = front ++ [']'] := by
  by_cases closed : ']' ∈ token
  · obtain ⟨front, back, split⟩ := List.append_of_mem closed
    obtain rfl := legible.ends split
    exact .inr ⟨front, split⟩
  · have unclosed : ']' ∉ token.map unmark := fun among =>
      closed (mem_of_mem_unmark (by decide) among).1
    have unopened : '[' ∉ token.map unmark := by
      intro opened
      rw [openAfter_of_mem opened unclosed] at shut
      cases shut
    refine .inl fun c among => (isPlain_iff c).2 ?_
    have piece : token ∈ read (token.map unmark) := by
      rw [legible.rereads]
      exact List.mem_cons_self ..
    obtain ⟨written, visible⟩ := Text.mem_of_mem_pieces (List.mem_filter.1 piece).1 c among
    have visible : c ≠ ' ' := by simpa using visible
    rcases mem_scan written with ⟨original, other⟩ | space | ⟨-, inside | opened⟩
    · have inside := mem_of_mem_unmark visible original
      refine ⟨?_, ?_, other, inside.2, ?_⟩
      · rintro rfl
        exact unopened original
      · rintro rfl
        exact closed among
      · rintro rfl
        exact legible.uncommented among
    · exact absurd space visible
    · cases inside
    · exact absurd opened unopened

/-! ## Text that is cut off at the end -/

theorem unmark_trimEnd {token : List Char} (legible : Legible token)
    (shut : openAfter false (token.map unmark) = false) :
    (Text.trimEnd token).map unmark = Text.trimEnd (token.map unmark) := by
  rcases legible.plain_or_closed shut with plain | ⟨front, rfl⟩
  · rw [plain.unmark_eq, (plain.of_prefix (Text.trimEnd_prefix token)).unmark_eq]
  · rw [Text.trimEnd_concat front (by decide), List.map_append, List.map_singleton]
    exact (Text.trimEnd_concat _ (by decide)).symm

theorem read_trimEnd {token : List Char} (legible : Legible token)
    (shut : openAfter false (token.map unmark) = false) (visible : Text.trimEnd token ≠ []) :
    read (Text.trimEnd (token.map unmark)) = [Text.trimEnd token] := by
  rcases legible.plain_or_closed shut with plain | ⟨front, rfl⟩
  · rw [plain.unmark_eq]
    exact (plain.of_prefix (Text.trimEnd_prefix token)).read_eq visible
  · rw [← unmark_trimEnd legible shut, Text.trimEnd_concat front (by decide)]
    exact legible.rereads

theorem argument_trimEnd {token : List Char} (legible : Legible token)
    (shut : openAfter false (token.map unmark) = false) :
    argument (String.ofList (Text.trimEnd token)) = argument (String.ofList token) := by
  rcases legible.plain_or_closed shut with plain | ⟨front, rfl⟩
  · have bare {text : List Char} (plain : Plain text) :
        (text.filter fun c => !isBracket c).map unmark = text := by
      rw [List.filter_eq_self.2, plain.unmark_eq]
      intro c among
      obtain ⟨opening, closing, -⟩ := (isPlain_iff c).1 (plain c among)
      simp [isBracket, opening, closing]
    rw [argument, argument, String.toList_ofList, String.toList_ofList, bare plain,
      bare (plain.of_prefix (Text.trimEnd_prefix token)), Text.trim_trimEnd]
  · rw [Text.trimEnd_concat front (by decide)]

def written (row : List (List Char)) : List Char :=
  List.intercalate [' '] (row.map fun token => token.map unmark)

theorem toList_restore (row : List String) :
    (restore row).toList = written (row.map String.toList) := by
  rw [restore, String.toList_ofList, written, List.map_map]
  rfl

@[simp] theorem written_nil : written [] = [] := rfl

theorem written_cons (token next : List Char) (row : List (List Char)) :
    written (token :: next :: row) = token.map unmark ++ ' ' :: written (next :: row) := by
  simp [written, List.intercalate]

theorem written_singleton (token : List Char) : written [token] = token.map unmark := by
  simp [written, List.intercalate]

theorem mem_intercalate {c : Char} {texts : List (List Char)}
    (among : c ∈ List.intercalate [' '] texts) : c = ' ' ∨ ∃ text ∈ texts, c ∈ text := by
  induction texts with
  | nil => simp at among
  | cons text texts induction =>
      cases texts with
      | nil => exact .inr ⟨text, List.mem_cons_self .., by simpa using among⟩
      | cons next texts =>
          have split : List.intercalate [' '] (text :: next :: texts) =
              text ++ ' ' :: List.intercalate [' '] (next :: texts) := by
            simp [List.intercalate]
          rw [split] at among
          rcases List.mem_append.1 among with here | among
          · exact .inr ⟨text, List.mem_cons_self .., here⟩
          · rcases List.mem_cons.1 among with space | among
            · exact .inl space
            · rcases induction among with space | ⟨other, inside, here⟩
              · exact .inl space
              · exact .inr ⟨other, List.mem_cons_of_mem text inside, here⟩

theorem uncommented_written {row : List (List Char)} (legible : ∀ token ∈ row, Legible token) :
    '\x7b' ∉ written row := by
  intro among
  rcases mem_intercalate among with space | ⟨text, inside, here⟩
  · cases space
  · obtain ⟨token, own, rfl⟩ := List.mem_map.1 inside
    exact (legible token own).uncommented (mem_of_mem_unmark (by decide) here).1

def trimmedRow : List (List Char) → List (List Char)
  | [] => []
  | [token] => [Text.trimEnd token]
  | token :: row => token :: trimmedRow row

theorem openAfter_of_blank {blanks : List Char} (blank : ∀ c ∈ blanks, Text.isBlank c = true)
    (inBrackets : Bool) : openAfter inBrackets blanks = inBrackets := by
  refine openAfter_of_ne (fun c among => ⟨?_, ?_⟩) inBrackets
  · rintro rfl
    exact absurd (blank _ among) (by decide)
  · rintro rfl
    exact absurd (blank _ among) (by decide)

theorem openAfter_trimEnd (inBrackets : Bool) (text : List Char) :
    openAfter inBrackets (Text.trimEnd text) = openAfter inBrackets text := by
  obtain ⟨blanks, whole, blank⟩ := Text.exists_trimEnd_append text
  generalize Text.trimEnd text = kept at whole
  rw [whole, openAfter_append, openAfter_of_blank blank]

theorem openAfter_written {row : List (List Char)}
    (shut : ∀ token ∈ row, openAfter false (token.map unmark) = false) :
    openAfter false (written row) = false := by
  induction row with
  | nil => rfl
  | cons token row induction =>
      obtain ⟨first, others⟩ := List.forall_mem_cons.1 shut
      cases row with
      | nil =>
          rw [written_singleton]
          exact first
      | cons next row =>
          rw [written_cons, openAfter_append, first]
          exact induction others

theorem read_trimEnd_written {row : List (List Char)} (inhabited : row ≠ [])
    (legible : ∀ token ∈ row, Legible token)
    (shut : ∀ token ∈ row, openAfter false (token.map unmark) = false)
    (visible : ∀ token ∈ row.getLast?, Text.trimEnd token ≠ []) :
    Text.trimEnd (written row) ≠ [] ∧ read (Text.trimEnd (written row)) = trimmedRow row := by
  induction row with
  | nil => exact absurd rfl inhabited
  | cons token row induction =>
      obtain ⟨firstLegible, othersLegible⟩ := List.forall_mem_cons.1 legible
      obtain ⟨firstShut, othersShut⟩ := List.forall_mem_cons.1 shut
      cases row with
      | nil =>
          have visible : Text.trimEnd token ≠ [] := visible token rfl
          rw [written_singleton]
          refine ⟨?_, read_trimEnd firstLegible firstShut visible⟩
          rw [← unmark_trimEnd firstLegible firstShut]
          exact fun empty => visible (List.map_eq_nil_iff.1 empty)
      | cons next row =>
          obtain ⟨rest, reads⟩ := induction (List.cons_ne_nil next row) othersLegible othersShut
            (by simpa using visible)
          have cuts : Text.trimEnd (written (token :: next :: row)) =
              token.map unmark ++ ' ' :: Text.trimEnd (written (next :: row)) := by
            rw [written_cons, ← List.singleton_append, ← List.append_assoc,
              Text.trimEnd_append _ rest, List.append_assoc]
            rfl
          rw [cuts, read_join firstShut, firstLegible.rereads, reads]
          exact ⟨List.append_ne_nil_of_right_ne_nil _ (List.cons_ne_nil _ _), rfl⟩

end PaperFolding.Script
