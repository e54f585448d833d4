import PaperFolding.Proofs.Script.Construction
import PaperFolding.Proofs.Session.Setting

/-!
The one entry of a rewritten history: the words of the appearance in front, the construction, and the
rest of the statement, each of them read as the tokens it was made of.
-/

namespace PaperFolding

open Script

structure Lead where
  parameter : Parameter
  words : List (List Char)
  appearance : parameter.isAppearance = true
  legible : ∀ token ∈ words, Legible token
  shut : ∀ token ∈ words, openAfter false (token.map unmark) = false
  unknown : ∀ token ∈ words, Session.isKnown (String.ofList token) = false
  setting : Setting
  reads : ∀ placing,
    parameter.setting placing (words.map fun token => argument (String.ofList token)) = .ok setting

namespace Lead

def entry (lead : Lead) : String :=
  Session.leadEntry lead.parameter.name (lead.words.map String.ofList)

def row (lead : Lead) : List String :=
  lead.parameter.name :: (trimmedRow lead.words).map String.ofList

theorem toList_entry (lead : Lead) :
    lead.entry.toList =
      Text.trimEnd (lead.parameter.name.toList ++ [' '] ++ written lead.words) := by
  rw [entry, Session.leadEntry, String.toList_ofList, toList_restore, List.map_map]
  simp [Function.comp_def]

theorem visible (lead : Lead) : ∀ token ∈ lead.words.getLast?, Text.trimEnd token ≠ [] := by
  intro token last empty
  have among : token ∈ lead.words := List.mem_of_getLast? last
  have same := argument_trimEnd (lead.legible token among) (lead.shut token among)
  rw [empty] at same
  have reads := lead.reads fun _ => none
  exact (Parameter.argument_of_setting lead.appearance reads _
    (List.mem_map_of_mem (f := fun token => argument (String.ofList token)) among)).1 same.symm

theorem entry_eq (lead : Lead) (some : lead.words ≠ []) :
    lead.entry.toList =
      lead.parameter.name.toList ++ ' ' :: Text.trimEnd (written lead.words) := by
  rw [toList_entry, Text.trimEnd_append _
    (read_trimEnd_written some lead.legible lead.shut lead.visible).1]
  simp

theorem entry_eq_name (lead : Lead) (none : lead.words = []) :
    lead.entry.toList = lead.parameter.name.toList := by
  rw [toList_entry, none, written_nil, List.append_nil]
  exact lead.parameter.trimEnd_name

theorem read_entry (lead : Lead) : (read lead.entry.toList).map String.ofList = lead.row := by
  by_cases none : lead.words = []
  · rw [lead.entry_eq_name none,
      lead.parameter.plain_name.read_eq lead.parameter.name_ne_nil, row, none]
    simp [trimmedRow]
  · rw [lead.entry_eq none, read_join (lead.parameter.plain_name.openAfter_eq false),
      lead.parameter.plain_name.read_eq lead.parameter.name_ne_nil,
      (read_trimEnd_written none lead.legible lead.shut lead.visible).2]
    simp [row]

theorem openAfter_entry (lead : Lead) : openAfter false lead.entry.toList = false := by
  rw [toList_entry, openAfter_trimEnd, openAfter_append, openAfter_append,
    lead.parameter.plain_name.openAfter_eq]
  exact openAfter_written lead.shut

theorem uncommented_entry (lead : Lead) : '\x7b' ∉ lead.entry.toList := by
  intro among
  rw [toList_entry] at among
  have inside := (Text.trimEnd_prefix _).subset among
  simp only [List.mem_append, List.mem_singleton] at inside
  rcases inside with (name | space) | token
  · exact lead.parameter.plain_name.uncommented name
  · cases space
  · exact uncommented_written lead.legible token

theorem tokens_entry (lead : Lead) : tokens lead.entry = lead.row := by
  rw [tokens_of_uncommented lead.uncommented_entry, lead.read_entry]

theorem name_prefix (lead : Lead) : lead.parameter.name.toList <+: lead.entry.toList := by
  by_cases none : lead.words = []
  · simp [lead.entry_eq_name none]
  · rw [lead.entry_eq none]
    exact List.prefix_append _ _

end Lead

/-! ## The rewritten history -/

theorem contains_eq_false {c : Char} {part text : List Char} (inside : c ∈ part) (outside : c ∉ text) :
    Text.contains part text = false := by
  induction text with
  | nil =>
      cases part with
      | nil => simp at inside
      | cons first part => rfl
  | cons first text induction =>
      rw [Text.contains, induction (List.not_mem_of_not_mem_cons outside), Bool.or_false]
      cases leads : part.isPrefixOf (first :: text) with
      | false => rfl
      | true => exact absurd ((List.isPrefixOf_iff_prefix.1 leads).subset inside) outside

theorem Parameter.letter_of_appearance {parameter : Parameter}
    (appearance : parameter.isAppearance = true) :
    'l' ∈ parameter.name.toList ∨ 'm' ∈ parameter.name.toList := by
  cases parameter <;> cases appearance <;> decide

/-- The words of the appearance that stay in front of a construction. -/
def staying (leads : List Lead) (construction : String) : List Lead :=
  leads.filter fun lead => !Text.contains lead.entry.toList construction.toList

theorem leadBefore_map (leads : List Lead) (construction : String) :
    Session.leadBefore (leads.map Lead.entry) construction =
      (staying leads construction).map Lead.entry := List.filter_map

theorem staying_eq (leads : List Lead) {construction : String} {row : List String}
    (constructs : Constructs construction row) : staying leads construction = leads := by
  rw [staying, List.filter_eq_self]
  intro lead _
  rw [Bool.not_eq_true']
  rcases Parameter.letter_of_appearance lead.appearance with letter | letter
  · exact contains_eq_false (lead.name_prefix.subset letter) constructs.apart.1
  · exact contains_eq_false (lead.name_prefix.subset letter) constructs.apart.2

theorem flatMap_read_entry (leads : List Lead) :
    ((leads.map fun lead => lead.entry.toList).flatMap read).map String.ofList =
      leads.flatMap Lead.row := by
  induction leads with
  | nil => rfl
  | cons lead leads induction =>
      rw [List.map_cons, List.flatMap_cons, List.map_append, induction, lead.read_entry,
        List.flatMap_cons]

theorem isEmpty_restore (row : List String) :
    (restore row).isEmpty = (written (row.map String.toList)).isEmpty := by
  rw [← toList_restore, Bool.eq_iff_iff, String.isEmpty_iff, List.isEmpty_iff,
    String.toList_eq_nil_iff]

theorem tokens_restore {row : List String} (rows : Row (row.map String.toList)) :
    tokens (restore row) = row := by
  have uncommented : '\x7b' ∉ (restore row).toList := by
    rw [toList_restore]
    exact uncommented_written rows.legible
  have reread : read (written (row.map String.toList)) = row.map String.toList := read_restore rows
  rw [tokens_of_uncommented uncommented, toList_restore, reread]
  simp [Function.comp_def]

theorem isEmpty_restore_of_row {row : List String} (rows : Row (row.map String.toList))
    (some : row ≠ []) : (restore row).isEmpty = false := by
  rw [Bool.eq_false_iff]
  intro empty
  have reads := tokens_restore rows
  rw [String.isEmpty_iff.1 empty] at reads
  exact some reads.symm

section Rebased

variable (leads : List Lead) {construction : String} {row rest : List String}

theorem toList_rebasedEntry (construction : String) (rest : List String) :
    (Session.rebasedEntry (leads.map Lead.entry) construction rest).toList =
      List.intercalate [' '] ((staying leads construction).map (fun lead => lead.entry.toList) ++
        [construction.toList] ++
        (if (written (rest.map String.toList)).isEmpty then []
          else [written (rest.map String.toList)])) := by
  rw [Session.rebasedEntry, String.toList_intercalate, leadBefore_map, isEmpty_restore]
  split <;> simp [toList_restore, Function.comp_def]

theorem uncommented_rebasedEntry (standalone : Standalone construction row)
    (rows : Row (rest.map String.toList)) :
    '\x7b' ∉ (Session.rebasedEntry (leads.map Lead.entry) construction rest).toList := by
  intro among
  rw [toList_rebasedEntry] at among
  rcases mem_intercalate among with space | ⟨text, inside, here⟩
  · cases space
  · rcases List.mem_append.1 inside with front | tail
    · rcases List.mem_append.1 front with entry | middle
      · obtain ⟨lead, -, rfl⟩ := List.mem_map.1 entry
        exact lead.uncommented_entry here
      · obtain rfl := List.mem_singleton.1 middle
        exact standalone.uncommented here
    · split at tail
      · simp at tail
      · obtain rfl := List.mem_singleton.1 tail
        exact uncommented_written rows.legible here

/-- A rewritten history is read as what it was made of. -/
theorem tokens_rebasedEntry (standalone : Standalone construction row)
    (rows : Row (rest.map String.toList)) :
    tokens (Session.rebasedEntry (leads.map Lead.entry) construction rest) =
      (staying leads construction).flatMap Lead.row ++ row ++ rest := by
  have shut : ∀ text ∈ (staying leads construction).map fun lead => lead.entry.toList,
      openAfter false text = false := by
    intro text among
    obtain ⟨lead, -, rfl⟩ := List.mem_map.1 among
    exact lead.openAfter_entry
  have reread : read (written (rest.map String.toList)) = rest.map String.toList :=
    read_restore rows
  have back : (rest.map String.toList).map String.ofList = rest := by
    simp [Function.comp_def]
  rw [tokens_of_uncommented (uncommented_rebasedEntry leads standalone rows), toList_rebasedEntry]
  split
  · rename_i empty
    rw [List.isEmpty_iff.1 empty] at reread
    have none : rest = [] := List.map_eq_nil_iff.1 reread.symm
    rw [List.append_nil, read_intercalate shut, List.map_append, flatMap_read_entry,
      standalone.reads, none, List.append_nil]
  · have shut : ∀ text ∈ ((staying leads construction).map fun lead => lead.entry.toList) ++
        [construction.toList], openAfter false text = false := by
      rw [List.forall_mem_append]
      exact ⟨shut, by simpa using standalone.shut⟩
    rw [read_intercalate shut, reread, List.map_append, back, List.flatMap_append,
      List.map_append, flatMap_read_entry, List.flatMap_singleton, standalone.reads]

end Rebased

end PaperFolding
