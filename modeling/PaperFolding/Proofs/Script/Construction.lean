import PaperFolding.Proofs.Script.Reprint
import PaperFolding.Script.Argument
import PaperFolding.Session.Command

/-!
The texts that make paper anew, and how they are read: printed corners, or the name of a sheet.
-/

namespace PaperFolding

open Script

/-! ## Printed numbers -/

namespace Coordinate

def isNumeral (c : Char) : Bool := c.isDigit || ['-', '.', 'i', 'n', 'f', 'N', 'a'].contains c

theorem isNumeral_toDigits {n : Nat} {c : Char} (among : c ∈ Nat.toDigits 10 n) :
    isNumeral c = true := by
  have digit : c.isDigit = true := Nat.isDigit_of_mem_toDigits (by decide) (by decide) among
  simp [isNumeral, digit]

theorem isNumeral_whole (d : Decimal.Numeral) {c : Char} (among : c ∈ d.whole) :
    isNumeral c = true := by
  unfold Decimal.Numeral.whole at among
  split at among
  · rcases List.mem_append.1 among with inside | zero
    · exact isNumeral_toDigits inside
    · rw [List.eq_of_mem_replicate zero]
      rfl
  · split at among
    · exact isNumeral_toDigits (List.mem_of_mem_take among)
    · rw [List.mem_singleton.1 among]
      rfl

theorem isNumeral_fraction (d : Decimal.Numeral) {c : Char} (among : c ∈ d.fraction) :
    isNumeral c = true := by
  unfold Decimal.Numeral.fraction at among
  split at among
  · simp at among
  · split at among
    · exact isNumeral_toDigits (List.mem_of_mem_drop among)
    · rcases List.mem_append.1 among with zero | inside
      · rw [List.eq_of_mem_replicate zero]
        rfl
      · exact isNumeral_toDigits inside

theorem isNumeral_chars (x : Coordinate) : ∀ c ∈ x.chars, isNumeral c = true := by
  have sign : ∀ c ∈ (if x.isNegative then ['-'] else []), isNumeral c = true := by
    split <;> simp [isNumeral]
  unfold chars
  split
  · simp [isNumeral]
  · dsimp only
    split
    · intro c among
      rcases List.mem_append.1 among with front | fraction
      · rcases List.mem_append.1 front with inside | whole
        · exact sign c inside
        · exact isNumeral_whole _ whole
      · split at fraction
        · simp at fraction
        · rcases List.mem_cons.1 fraction with rfl | fraction
          · rfl
          · exact isNumeral_fraction _ fraction
    · intro c among
      rcases List.mem_append.1 among with inside | inside
      · exact sign c inside
      · have infinite : ['i', 'n', 'f'].all isNumeral = true := rfl
        exact List.all_eq_true.1 infinite c inside

theorem isBlank_of_isNumeral {c : Char} (numeral : isNumeral c = true) :
    Text.isBlank c = false := by
  rcases Bool.or_eq_true_iff.1 numeral with digit | other
  · have bounds : 48 ≤ c.toNat ∧ c.toNat ≤ 57 := Char.isDigit_iff_toNat.1 digit
    simp only [Text.isBlank, Text.blankRanges, List.any_cons, List.any_nil, Bool.or_eq_false_iff,
      Bool.and_eq_false_iff, decide_eq_false_iff_not, and_true]
    omega
  · have visible : (['-', '.', 'i', 'n', 'f', 'N', 'a'].all fun c => !Text.isBlank c) = true := by
      decide
    have here := List.all_eq_true.1 visible c (List.contains_iff_mem.1 other)
    exact Bool.not_eq_true' _ |>.mp here

theorem isPlain_of_isNumeral {c : Char} (numeral : isNumeral c = true) : isPlain c = true := by
  have visible : isGap c = false := by
    cases gapped : isGap c with
    | false => rfl
    | true => rcases (isGap_iff c).1 gapped with rfl | rfl | rfl | rfl <;> cases numeral
  refine (isPlain_iff c).2 ⟨?_, ?_, visible, ?_, ?_⟩ <;> rintro rfl <;> cases numeral

theorem plain_chars (x : Coordinate) : Plain x.chars := fun c among =>
  isPlain_of_isNumeral (x.isNumeral_chars c among)

theorem whole_ne_nil (d : Decimal.Numeral) : d.whole ≠ [] := by
  unfold Decimal.Numeral.whole
  split
  · exact List.append_ne_nil_of_left_ne_nil Nat.toDigits_ne_nil _
  · split
    · rename_i leading
      intro empty
      rcases List.take_eq_nil_iff.1 empty with none | none
      · omega
      · exact Nat.toDigits_ne_nil none
    · exact List.cons_ne_nil _ _

theorem chars_ne_nil (x : Coordinate) : x.chars ≠ [] := by
  unfold chars
  split
  · exact List.cons_ne_nil _ _
  · dsimp only
    split
    · exact List.append_ne_nil_of_left_ne_nil
        (List.append_ne_nil_of_right_ne_nil _ (whole_ne_nil _)) _
    · exact List.append_ne_nil_of_right_ne_nil _ (List.cons_ne_nil _ _)

/-- A number that is read from the text it is printed as. -/
def Printable (x : Coordinate) : Prop := read? x.chars = some x

instance (x : Coordinate) : Decidable x.Printable := inferInstanceAs (Decidable (_ = _))

end Coordinate

structure Planar.Printable (corner : Planar) : Prop where
  x : corner.x.Printable
  y : corner.y.Printable

instance (corner : Planar) : Decidable corner.Printable :=
  decidable_of_iff (corner.x.Printable ∧ corner.y.Printable)
    ⟨fun both => ⟨both.1, both.2⟩, fun both => ⟨both.x, both.y⟩⟩

/-! ## Corners -/

namespace Script

theorem Plain.spaceAfter_eq {text : List Char} (plain : Plain text) :
    spaceAfter false text = false := by
  induction text with
  | nil => rfl
  | cons c text induction =>
      obtain ⟨first, others⟩ := List.forall_mem_cons.1 plain
      obtain ⟨-, closing, other, -⟩ := (isPlain_iff c).1 first
      rw [spaceAfter, other]
      simpa [closing] using induction others

theorem openAfter_closing (inBrackets : Bool) (text : List Char) :
    openAfter inBrackets (text ++ [']']) = false := by
  rw [openAfter_append]
  rfl

theorem read_pair {first second : List Char} (plain : Plain first) (plain' : Plain second) :
    read ('[' :: first ++ ' ' :: second ++ [']']) =
      ['[' :: first ++ spaceMark :: second ++ [']']] := by
  have behind : scan true false ('[' :: first ++ ' ' :: second ++ [']']) =
      ('[' :: first ++ spaceMark :: second ++ [']']) ++ [' '] := by
    rw [List.append_assoc, List.cons_append, scan_bracket_true, scan_append, plain.scan_eq,
      plain.spaceAfter_eq, plain.openAfter_eq, List.cons_append, scan_gap_false _ _ rfl, scan_append,
      plain'.scan_eq, scan_closing]
    simp [gap]
  have spaceless : ' ' ∉ '[' :: first ++ spaceMark :: second ++ [']'] := by
    simp only [List.cons_append, List.append_assoc, List.mem_cons, List.mem_append,
      List.not_mem_nil, or_false, not_or]
    exact ⟨by decide, plain.spaceless, by decide, plain'.spaceless, by decide⟩
  rw [read, behind, cut_trailing]
  exact cut_word spaceless (List.cons_ne_nil _ _)

def cornerToken (corner : Planar) : String :=
  String.ofList ('[' :: corner.x.chars ++ spaceMark :: corner.y.chars ++ [']'])

def cornerGroups (corners : List Planar) : List String :=
  corners.flatMap fun corner => [Parameter.corner.name, cornerToken corner]

end Script

namespace Session

theorem toList_cornerConstruction_cons (corner : Planar) (corners : List Planar) :
    (cornerConstruction (corner :: corners)).toList =
      Parameter.corner.name.toList ++ ' ' ::
        (('[' :: corner.x.chars ++ ' ' :: corner.y.chars ++ [']']) ++ ' ' ::
          (cornerConstruction corners).toList) := by
  simp [cornerConstruction, Coordinate.text, Parameter.name, String.join_cons]

theorem read_cornerConstruction (corners : List Planar) :
    (read (cornerConstruction corners).toList).map String.ofList =
      cornerGroups corners ++ [Command.new.name] := by
  induction corners with
  | nil => decide
  | cons corner corners induction =>
      rw [toList_cornerConstruction_cons, read_join (by decide),
        read_join (openAfter_closing false _),
        read_pair corner.x.plain_chars corner.y.plain_chars, List.map_append, List.map_append,
        induction]
      rfl

end Session

namespace Script

theorem trim_pair {first second : List Char} (inhabited : first ≠ []) (inhabited' : second ≠ [])
    (visible : ∀ c ∈ first, Text.isBlank c = false)
    (visible' : ∀ c ∈ second, Text.isBlank c = false) :
    Text.trim (first ++ ' ' :: second) = first ++ ' ' :: second := by
  have start : Text.trimStart (first ++ ' ' :: second) = first ++ ' ' :: second := by
    cases first with
    | nil => exact absurd rfl inhabited
    | cons c first => simp [Text.trimStart, visible c (List.mem_cons_self ..)]
  rw [Text.trim, start]
  obtain ⟨init, c, split⟩ := (List.eq_nil_or_concat second).resolve_left inhabited'
  rw [List.concat_eq_append] at split
  subst split
  have last : Text.isBlank c = false := visible' c (by simp)
  rw [← List.cons_append, ← List.append_assoc]
  exact Text.trimEnd_concat _ last

theorem argument_cornerToken (corner : Planar) :
    (argument (cornerToken corner)).toList = corner.x.chars ++ ' ' :: corner.y.chars := by
  have bare {text : List Char} (plain : Plain text) :
      text.filter (fun c => !isBracket c) = text := by
    rw [List.filter_eq_self]
    intro c among
    obtain ⟨opening, closing, -⟩ := (isPlain_iff c).1 (plain c among)
    simp [isBracket, opening, closing]
  have opened : isBracket '[' = true := rfl
  have closed : isBracket ']' = true := rfl
  have mark : isBracket spaceMark = false := rfl
  have space : unmark spaceMark = ' ' := rfl
  have text : ((cornerToken corner).toList.filter fun c => !isBracket c).map unmark =
      corner.x.chars ++ ' ' :: corner.y.chars := by
    simp [cornerToken, opened, closed, mark, space, bare corner.x.plain_chars,
      bare corner.y.plain_chars, corner.x.plain_chars.unmark_eq, corner.y.plain_chars.unmark_eq]
  rw [argument, String.toList_ofList, text]
  exact trim_pair corner.x.chars_ne_nil corner.y.chars_ne_nil
    (fun c among => Coordinate.isBlank_of_isNumeral (corner.x.isNumeral_chars c among))
    (fun c among => Coordinate.isBlank_of_isNumeral (corner.y.isNumeral_chars c among))

theorem planar?_cornerToken {corner : Planar} (printable : corner.Printable) :
    planar? (argument (cornerToken corner)) = some corner := by
  have cuts : words (argument (cornerToken corner)) = [corner.x.chars, corner.y.chars] := by
    rw [words, argument_cornerToken, Text.words, Text.runs_append (by decide),
      Text.runs_of_uncut ?_ corner.x.chars_ne_nil, Text.runs_of_uncut ?_ corner.y.chars_ne_nil]
    · rfl
    · exact fun c among => Coordinate.isBlank_of_isNumeral (corner.y.isNumeral_chars c among)
    · exact fun c among => Coordinate.isBlank_of_isNumeral (corner.x.isNumeral_chars c among)
  have x : Coordinate.read? corner.x.chars = some corner.x := printable.x
  have y : Coordinate.read? corner.y.chars = some corner.y := printable.y
  simp [planar?, numbers?, cuts, x, y]

def presetToken (preset : Preset) : String := "[" ++ preset.tag ++ "]"

theorem read_presetConstruction (preset : Preset) :
    (read (Session.presetConstruction preset).toList).map String.ofList =
      [Parameter.paper.name, presetToken preset, Command.new.name] := by
  cases preset <;> decide

/-- A text that is read as these tokens wherever it stands between others. -/
structure Standalone (text : String) (row : List String) : Prop where
  reads : (read text.toList).map String.ofList = row
  shut : openAfter false text.toList = false
  uncommented : '\x7b' ∉ text.toList

/-- A text that makes paper, with the tokens it is read as. No word of the appearance stands in it, as
each of those has one of two letters that it lacks. -/
structure Constructs (text : String) (row : List String) : Prop extends Standalone text row where
  apart : 'l' ∉ text.toList ∧ 'm' ∉ text.toList

theorem Constructs.preset (preset : Preset) :
    Constructs (Session.presetConstruction preset)
      [Parameter.paper.name, presetToken preset, Command.new.name] where
  reads := read_presetConstruction preset
  shut := by cases preset <;> decide
  uncommented := by cases preset <;> decide
  apart := by cases preset <;> decide

theorem openAfter_cornerConstruction (corners : List Planar) :
    openAfter false (Session.cornerConstruction corners).toList = false := by
  induction corners with
  | nil => decide
  | cons corner corners induction =>
      have name : openAfter false Parameter.corner.name.toList = false := by decide
      have space (text : List Char) : openAfter false (' ' :: text) = openAfter false text := rfl
      rw [Session.toList_cornerConstruction_cons, openAfter_append, name, space, openAfter_append,
        openAfter_closing, space, induction]

theorem mem_cornerConstruction {corners : List Planar} {c : Char}
    (among : c ∈ (Session.cornerConstruction corners).toList) :
    c ∈ "corner new[]".toList ∨ Coordinate.isNumeral c = true := by
  induction corners with
  | nil =>
      have all : (Session.cornerConstruction []).toList ⊆ "corner new[]".toList := by decide
      exact .inl (all among)
  | cons corner corners induction =>
      have name : Parameter.corner.name.toList ⊆ "corner new[]".toList := by decide
      simp only [Session.toList_cornerConstruction_cons, List.mem_append, List.mem_cons,
        List.not_mem_nil, or_false] at among
      rcases among with here | rfl | (((rfl | x) | rfl | y) | rfl) | rfl | later
      · exact .inl (name here)
      · exact .inl (by decide)
      · exact .inl (by decide)
      · exact .inr (corner.x.isNumeral_chars c x)
      · exact .inl (by decide)
      · exact .inr (corner.y.isNumeral_chars c y)
      · exact .inl (by decide)
      · exact .inl (by decide)
      · exact induction later

theorem notMem_cornerConstruction {c : Char} (corners : List Planar)
    (word : c ∉ "corner new[]".toList) (number : Coordinate.isNumeral c = false) :
    c ∉ (Session.cornerConstruction corners).toList := by
  intro among
  rcases mem_cornerConstruction among with inside | numeral
  · exact word inside
  · rw [number] at numeral
    cases numeral

theorem Constructs.corners (corners : List Planar) :
    Constructs (Session.cornerConstruction corners)
      (cornerGroups corners ++ [Command.new.name]) where
  reads := Session.read_cornerConstruction corners
  shut := openAfter_cornerConstruction corners
  uncommented := notMem_cornerConstruction corners (by decide) rfl
  apart := ⟨notMem_cornerConstruction corners (by decide) rfl,
    notMem_cornerConstruction corners (by decide) rfl⟩

end Script

end PaperFolding
