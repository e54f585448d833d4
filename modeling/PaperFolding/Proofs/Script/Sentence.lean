import Mathlib.Data.List.DropRight
import PaperFolding.Proofs.Script.Layout
import PaperFolding.Proofs.Script.Naming

/-!
The grammar of scripts: words, and groups in brackets with more words behind each of them. A script of that
form is cut into the words and the groups in their order, however they touch each other.
-/

namespace PaperFolding.Script

def Unbracketed (text : List Char) : Prop := ∀ c ∈ text, isBracket c = false

instance (text : List Char) : Decidable (Unbracketed text) := List.decidableBAll _ text

/-- The text with one space in the place of each run of white space. -/
def squeeze : List Char → List Char
  | [] => []
  | c :: text =>
      if isGap c then ' ' :: (squeeze text).dropWhile (· = ' ')
      else c :: squeeze text

def mark (c : Char) : Char := if c = ' ' then spaceMark else c

/-- A text between brackets, and what stands up to the next opening bracket or to the end. -/
structure Group where
  inside : List Char
  behind : List Char
  inside_unbracketed : Unbracketed inside
  behind_unbracketed : Unbracketed behind

structure Sentence where
  front : List Char
  groups : List Group
  front_unbracketed : Unbracketed front

namespace Group

def text (group : Group) : List Char := '[' :: (group.inside ++ ']' :: group.behind)

def token (group : Group) : List Char := '[' :: (squeeze group.inside).map mark ++ [']']

def content (group : Group) : List Char := Text.trim (squeeze group.inside)

end Group

namespace Sentence

def text (sentence : Sentence) : List Char :=
  sentence.front ++ sentence.groups.flatMap Group.text

def words (sentence : Sentence) : List (List Char) :=
  Text.runs isGap sentence.front ++
    sentence.groups.flatMap fun group => Text.runs isGap group.behind

def row (sentence : Sentence) : List (List Char) :=
  Text.runs isGap sentence.front ++
    sentence.groups.flatMap fun group => group.token :: Text.runs isGap group.behind

end Sentence

/-! ## Words -/

theorem ne_bracket_of_plain {c : Char} (plain : isBracket c = false) : c ≠ '[' ∧ c ≠ ']' := by
  simpa [isBracket] using plain

theorem Unbracketed.openAfter_eq {text : List Char} (unbracketed : Unbracketed text)
    (inBrackets : Bool) : openAfter inBrackets text = inBrackets :=
  openAfter_of_ne (fun c among => ne_bracket_of_plain (unbracketed c among)) inBrackets

theorem scan_word {word : List Char} (unbracketed : Unbracketed word)
    (visible : ∀ c ∈ word, isGap c = false) (afterSpace inBrackets : Bool) :
    scan afterSpace inBrackets word = word := by
  refine scan_of_visible (fun c among => ?_) afterSpace inBrackets
  obtain ⟨opening, closing⟩ := ne_bracket_of_plain (unbracketed c among)
  exact ⟨opening, closing, visible c among⟩

theorem read_word {word : List Char} (unbracketed : Unbracketed word)
    (visible : ∀ c ∈ word, isGap c = false) : read word = Text.runs isGap word := by
  by_cases inhabited : word = []
  · rw [inhabited]
    rfl
  · have spaceless : ' ' ∉ word := fun among => absurd (visible _ among) (by decide)
    rw [read, scan_word unbracketed visible, cut_word spaceless inhabited,
      Text.runs_of_uncut visible inhabited]

/-- The word at the end of `front` goes on in `text` up to its first gap. -/
theorem read_words {front text : List Char} (unbracketed : Unbracketed (front ++ text))
    (visible : ∀ c ∈ front, isGap c = false) :
    read (front ++ text) = Text.runs isGap (front ++ text) := by
  induction text generalizing front with
  | nil =>
      rw [List.append_nil] at unbracketed ⊢
      exact read_word unbracketed visible
  | cons c text induction =>
      cases gapped : isGap c with
      | true =>
          obtain ⟨before, others⟩ := List.forall_mem_append.1 unbracketed
          have behind := @induction [] (List.forall_mem_cons.1 others).2 (by simp)
          rw [read_break gapped (Unbracketed.openAfter_eq before false), Text.runs_append gapped,
            read_word before visible, ← List.nil_append text, behind]
      | false =>
          rw [List.append_cons] at unbracketed ⊢
          exact induction unbracketed (by simpa [or_imp, forall_and, gapped] using visible)

/-! ## Groups -/

theorem scan_inside {text : List Char} (unbracketed : Unbracketed text) :
    scan false true text = (squeeze text).map mark ∧
      scan true true text = ((squeeze text).dropWhile (· = ' ')).map mark := by
  induction text with
  | nil => exact ⟨rfl, rfl⟩
  | cons c text induction =>
      obtain ⟨plain, others⟩ := List.forall_mem_cons.1 unbracketed
      obtain ⟨opening, closing⟩ := ne_bracket_of_plain plain
      obtain ⟨wide, narrow⟩ := induction others
      cases gapped : isGap c with
      | true => simp [squeeze, gapped, narrow, gap, mark, List.dropWhile_idempotent]
      | false =>
          have visible : c ≠ ' ' := by
            rintro rfl
            cases gapped
          simp [scan_other _ _ _ opening closing gapped, squeeze, gapped, wide, mark, visible]

theorem read_opening {front : List Char} (shut : openAfter false front = false)
    (back : List Char) : read (front ++ '[' :: back) = read front ++ read ('[' :: back) := by
  rw [← read_join shut, read, read, scan_append, scan_append, scan_space_opening]

theorem read_closing (front back : List Char) :
    read (front ++ ']' :: back) = read (front ++ [']']) ++ read back := by
  have split (text : List Char) : front ++ [']'] ++ text = front ++ ']' :: text := by simp
  rw [← read_join (openAfter_closing false front), split, read, read, scan_append, scan_append,
    scan_closing_space]

theorem unclosed_of_unbracketed {text : List Char} (unbracketed : Unbracketed text) :
    ']' ∉ text := fun among => absurd (unbracketed _ among) (by decide)

theorem Group.read_text (group : Group) (back : List Char) :
    read (group.text ++ back) = group.token :: read (group.behind ++ back) := by
  have split : group.text ++ back = '[' :: group.inside ++ ']' :: (group.behind ++ back) := by
    simp [Group.text]
  rw [split, read_closing, Script.read_group (unclosed_of_unbracketed group.inside_unbracketed),
    (scan_inside group.inside_unbracketed).1]
  rfl

theorem read_groups (groups : List Group) {front : List Char} (unbracketed : Unbracketed front) :
    read (front ++ groups.flatMap Group.text) = Text.runs isGap front ++
      groups.flatMap fun group => group.token :: Text.runs isGap group.behind := by
  induction groups generalizing front with
  | nil =>
      rw [List.flatMap_nil, List.flatMap_nil, List.append_nil, List.append_nil]
      exact @read_words [] front unbracketed (by simp)
  | cons group groups induction =>
      have words : read front = Text.runs isGap front :=
        @read_words [] front unbracketed (by simp)
      have opens : group.text ++ groups.flatMap Group.text =
          '[' :: (group.inside ++ ']' :: group.behind ++ groups.flatMap Group.text) := rfl
      rw [List.flatMap_cons, List.flatMap_cons, opens,
        read_opening (unbracketed.openAfter_eq false), ← opens, group.read_text,
        induction group.behind_unbracketed, words, List.cons_append]

/-! ## What a token carries -/

theorem mem_squeeze {c : Char} {text : List Char} (among : c ∈ squeeze text) :
    c = ' ' ∨ c ∈ text := by
  induction text with
  | nil => cases among
  | cons first text induction =>
      rw [squeeze] at among
      split at among
      · rcases List.mem_cons.1 among with space | later
        · exact .inl space
        · exact (induction ((List.dropWhile_sublist _).subset later)).imp_right
            (List.mem_cons_of_mem first)
      · rcases List.mem_cons.1 among with rfl | later
        · exact .inr (List.mem_cons_self ..)
        · exact (induction later).imp_right (List.mem_cons_of_mem first)

theorem unmark_mark {c : Char} (unmarked : c ≠ spaceMark) : unmark (mark c) = c := by
  unfold mark
  split
  · rename_i space
    exact space.symm
  · exact unmark_of_ne unmarked

theorem isBracket_mark (c : Char) : isBracket (mark c) = isBracket c := by
  unfold mark
  split
  · rename_i space
    subst space
    rfl
  · rfl

namespace Group

variable (group : Group)

theorem unbracketed_squeeze : Unbracketed (squeeze group.inside) := by
  intro c among
  rcases mem_squeeze among with rfl | inside
  · rfl
  · exact group.inside_unbracketed c inside

theorem isFragment_token : isFragment (String.ofList group.token) = true :=
  isFragment_of_mem (List.mem_cons_self ..)

theorem filter_token :
    group.token.filter (fun c => !isBracket c) = (squeeze group.inside).map mark := by
  have kept : ((squeeze group.inside).map mark).filter (fun c => !isBracket c) =
      (squeeze group.inside).map mark := by
    refine List.filter_eq_self.2 fun c among => ?_
    obtain ⟨original, inside, rfl⟩ := List.mem_map.1 among
    rw [isBracket_mark, group.unbracketed_squeeze original inside]
    rfl
  rw [token, List.filter_append, List.filter_cons_of_neg (by decide), kept]
  exact List.append_nil _

variable {group}

theorem argument_token (unmarked : spaceMark ∉ group.inside) :
    argument (String.ofList group.token) = String.ofList group.content := by
  have restored : ((squeeze group.inside).map mark).map unmark = squeeze group.inside := by
    rw [List.map_map, List.map_congr_left (g := id), List.map_id]
    intro c among
    refine unmark_mark ?_
    rintro rfl
    rcases mem_squeeze among with space | inside
    · cases space
    · exact unmarked inside
  rw [argument, String.toList_ofList, group.filter_token, restored]
  rfl

end Group

theorem Sentence.isFragment_word (sentence : Sentence) {word : List Char}
    (among : word ∈ sentence.words) : isFragment (String.ofList word) = false := by
  have plain {text : List Char} (unbracketed : Unbracketed text)
      (run : word ∈ Text.runs isGap text) : Unbracketed word := fun c inside =>
    unbracketed c (Text.mem_of_mem_pieces (List.mem_filter.1 run).1 c inside).1
  have unbracketed : Unbracketed word := by
    rcases List.mem_append.1 among with first | later
    · exact plain sentence.front_unbracketed first
    · obtain ⟨group, -, run⟩ := List.mem_flatMap.1 later
      exact plain group.behind_unbracketed run
  rw [isFragment, String.toList_ofList, List.any_eq_false]
  intro c inside
  rw [unbracketed c inside]
  exact Bool.false_ne_true

/-- A script without comments that has the form of a sentence is cut into the runs of visible characters
and one token for each group, in their order. The token of a group carries what is inside the brackets. -/
theorem tokens_sentence {source : String} (sentence : Sentence)
    (form : stripComments false source.toList = sentence.text) :
    tokens source = sentence.row.map String.ofList ∧
      (∀ group ∈ sentence.groups, isFragment (String.ofList group.token) = true ∧
        (spaceMark ∉ group.inside →
          argument (String.ofList group.token) = String.ofList group.content)) ∧
      ∀ word ∈ sentence.words, isFragment (String.ofList word) = false := by
  refine ⟨?_, fun group _ => ⟨group.isFragment_token, Group.argument_token⟩,
    fun word among => sentence.isFragment_word among⟩
  rw [tokens_eq_read, form, Sentence.text, read_groups _ sentence.front_unbracketed, Sentence.row]

def crowdedSource : String := "cut\x7bit\x7d[1 \x7band\x7d 2]paper[ a4\t] new"

def crowded : Sentence where
  front := "cut".toList
  groups :=
    [⟨"1  2".toList, "paper".toList, by decide, by decide⟩,
      ⟨" a4\t".toList, " new".toList, by decide, by decide⟩]
  front_unbracketed := by decide

theorem tokens_sentence_crowded :
    stripComments false crowdedSource.toList = crowded.text ∧
      tokens crowdedSource = crowded.row.map String.ofList ∧
      (∀ group ∈ crowded.groups, isFragment (String.ofList group.token) = true ∧
        (spaceMark ∉ group.inside →
          argument (String.ofList group.token) = String.ofList group.content)) ∧
      ∀ word ∈ crowded.words, isFragment (String.ofList word) = false := by
  have form : stripComments false crowdedSource.toList = crowded.text := by decide
  exact ⟨form, tokens_sentence crowded form⟩

example : tokens crowdedSource = ["cut", "[1|2]", "paper", "[|a4|]", "new"] := by decide

end PaperFolding.Script
