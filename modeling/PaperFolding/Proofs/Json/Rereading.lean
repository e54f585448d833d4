import Mathlib.Tactic.Common
import PaperFolding.Proofs.Json.Atom

/-!
A JSON value is read back from the text it is written as.
-/

namespace PaperFolding.Json

mutual

/-- The value can be written: its numbers are such as JSON allows and its texts can be read. -/
def Printable : Json → Prop
  | .number n => n.Legal
  | .text value => value.isSome
  | .list items => PrintableItems items
  | .object fields => PrintableFields fields
  | _ => True

def PrintableItems : List Json → Prop
  | [] => True
  | item :: items => item.Printable ∧ PrintableItems items

def PrintableFields : List (Option String × Json) → Prop
  | [] => True
  | (name, value) :: fields => name.isSome ∧ value.Printable ∧ PrintableFields fields

end

theorem printableItems_iff {items : List Json} :
    PrintableItems items ↔ ∀ item ∈ items, item.Printable := by
  induction items with
  | nil => simp [PrintableItems]
  | cons item items induction => rw [PrintableItems, induction, List.forall_mem_cons]

/-! ## Blanks -/

theorem skipBlank_newLine (level : Nat) (text : List Char) :
    skipBlank (newLine level ++ text) = skipBlank text :=
  List.dropWhile_append_of_pos fun c among => by
    rcases List.mem_cons.1 among with rfl | among
    · rfl
    · rw [List.eq_of_mem_replicate among]
      rfl

theorem value?_newLine (fuel level : Nat) (text : List Char) :
    value? fuel (newLine level ++ text) = value? fuel text := by
  cases fuel with
  | zero => rfl
  | succ fuel => rw [value?, value?, skipBlank_newLine]

theorem value?_space (fuel : Nat) (text : List Char) :
    value? fuel (' ' :: text) = value? fuel text := by
  cases fuel with
  | zero => rfl
  | succ fuel => rw [value?, value?]; rfl

theorem closes_newLine (level : Nat) (text : List Char) : Closes (newLine level ++ text) :=
  ⟨fun _ first => Option.some.inj first ▸ ⟨rfl, by decide⟩,
    fun _ first => Option.some.inj first ▸ by decide⟩

theorem closes_comma (text : List Char) : Closes (',' :: text) :=
  ⟨fun _ first => Option.some.inj first ▸ ⟨rfl, by decide⟩,
    fun _ first => Option.some.inj first ▸ by decide⟩

theorem skipBlank_comma (text : List Char) : skipBlank (',' :: text) = ',' :: text := rfl

theorem skipBlank_colon (text : List Char) : skipBlank (':' :: text) = ':' :: text := rfl

/-! ## The first character -/

theorem exists_sign_or_digit {n : Number} (legal : n.Legal) :
    ∃ c tail, n.chars = c :: tail ∧ (c = '-' ∨ Text.isDigit c = true) := by
  obtain ⟨inhabited, every⟩ := legal.whole
  obtain ⟨c, places, whole⟩ := List.exists_cons_of_ne_nil inhabited
  rw [Number.chars_eq, whole, List.append_assoc, List.append_assoc]
  cases n.negative with
  | true => exact ⟨'-', _, rfl, .inl rfl⟩
  | false => exact ⟨c, _, rfl, .inr (every c (whole ▸ List.mem_cons_self ..))⟩

theorem inside_of_sign_or_digit {c : Char} (first : c = '-' ∨ Text.isDigit c = true) :
    isBlank c = false ∧ c ≠ ']' ∧ c ≠ '\x7d' := by
  rcases first with rfl | digit
  · decide
  · refine ⟨?_, ?_, ?_⟩
    · rw [← Bool.not_eq_true]
      intro blank
      simp only [isBlank, Bool.or_eq_true, decide_eq_true_iff] at blank
      rcases blank with ((rfl | rfl) | rfl) | rfl <;> exact absurd digit (by decide)
    all_goals
      rintro rfl
      exact absurd digit (by decide)

/-- What a written value begins with is neither blank nor the end of a list or of an object. -/
theorem exists_first {value : Json} (printable : value.Printable) (level : Nat) :
    ∃ c tail, chars level value = c :: tail ∧ isBlank c = false ∧ c ≠ ']' ∧ c ≠ '\x7d' := by
  cases value with
  | number n =>
      obtain ⟨c, tail, written, first⟩ := exists_sign_or_digit printable
      exact ⟨c, tail, by rw [chars, written], inside_of_sign_or_digit first⟩
  | null => exact ⟨'n', _, rfl, by decide⟩
  | bool value => cases value <;> exact ⟨_, _, rfl, by decide⟩
  | text value => exact ⟨'\"', _, rfl, by decide⟩
  | list items => cases items <;> exact ⟨'[', _, rfl, by decide⟩
  | object fields => cases fields <;> exact ⟨'\x7b', _, rfl, by decide⟩

theorem skipBlank_chars {value : Json} (printable : value.Printable) (level : Nat)
    (rest : List Char) : skipBlank (chars level value ++ rest) = chars level value ++ rest := by
  obtain ⟨c, tail, written, visible, -⟩ := exists_first printable level
  rw [written, List.cons_append, skipBlank, List.dropWhile_cons_of_neg (by simp [visible])]

/-! ## Values -/

theorem value?_of_number {n : Number} {c : Char} {tail rest : List Char}
    (first : c = '-' ∨ Text.isDigit c = true) (reads : number? (c :: tail) = some (n, rest))
    (fuel : Nat) : value? (fuel + 1) (c :: tail) = some (.number n, rest) := by
  have visible : skipBlank (c :: tail) = c :: tail :=
    List.dropWhile_cons_of_neg (by simp [(inside_of_sign_or_digit first).1])
  rw [value?, visible]
  split
  case h_7 => rw [reads, Option.map_some]
  all_goals
    rename_i same
    obtain ⟨rfl, -⟩ := List.cons.inj same
    rcases first with same | digit
    · exact absurd same (by decide)
    · exact absurd digit (by decide)

theorem value?_number {n : Number} (legal : n.Legal) {fuel : Nat} {rest : List Char}
    (closes : Closes rest) : value? (fuel + 1) (n.chars ++ rest) = some (.number n, rest) := by
  obtain ⟨c, tail, written, first⟩ := exists_sign_or_digit legal
  have reads := number?_chars legal closes
  rw [written, List.cons_append] at reads ⊢
  exact value?_of_number first reads fuel

theorem value?_list {fuel : Nat} {source : List Char} {c : Char} {tail : List Char}
    (found : skipBlank source = c :: tail) (inhabited : c ≠ ']') :
    value? (fuel + 1) ('[' :: source) =
      (items? fuel source).map fun (items, rest) => (.list items, rest) := by
  rw [value?]
  simp only [show skipBlank ('[' :: source) = '[' :: source from rfl, found]
  split
  · simp_all
  · rfl

theorem value?_object {fuel : Nat} {source : List Char} {c : Char} {tail : List Char}
    (found : skipBlank source = c :: tail) (inhabited : c ≠ '\x7d') :
    value? (fuel + 1) ('\x7b' :: source) =
      (fields? fuel source).map fun (fields, rest) => (.object fields, rest) := by
  rw [value?]
  simp only [show skipBlank ('\x7b' :: source) = '\x7b' :: source from rfl, found]
  split
  · simp_all
  · rfl

mutual

theorem value?_chars (value : Json) (printable : value.Printable) {level fuel : Nat}
    {rest : List Char} (closes : Closes rest) (enough : 2 * (chars level value).length < fuel) :
    value? fuel (chars level value ++ rest) = some (value, rest) := by
  obtain ⟨fuel, rfl⟩ : ∃ less, fuel = less + 1 := ⟨fuel - 1, by omega⟩
  match value with
  | .number n => exact value?_number printable closes
  | .null => rfl
  | .bool true => rfl
  | .bool false => rfl
  | .text none => contradiction
  | .text (some content) =>
      have read := quoted?_escape content rest
      rw [chars, Option.getD_some, quote, List.cons_append, List.cons_append, List.append_assoc,
        List.singleton_append, value?]
      show (quoted? _).map _ = _
      rw [read, Option.map_some]
  | .list [] => rfl
  | .object [] => rfl
  | .list (item :: items) =>
      obtain ⟨c, tail, written, visible, inhabited, -⟩ := exists_first printable.1 (level + 1)
      have found (back : List Char) : skipBlank (newLine (level + 1) ++
          (chars (level + 1) item ++ back)) = c :: (tail ++ back) := by
        rw [skipBlank_newLine, skipBlank_chars printable.1, written, List.cons_append]
      have read := @items?_chars item items printable (level + 1) level fuel rest (by
          simp only [chars, List.cons_append, List.length_cons, List.length_append] at enough
          omega)
      simp only [chars, List.cons_append, List.append_assoc, List.nil_append]
      rw [value?_list (found _) inhabited, read, Option.map_some]
  | .object ((none, first) :: fields) => exact absurd printable.1 (by simp)
  | .object ((some name, first) :: fields) =>
      have read := @fields?_chars name first fields printable.2.1 printable.2.2 (level + 1) level fuel
        rest (by
          simp only [chars, Option.getD_some, List.cons_append, List.length_cons,
            List.length_append] at enough
          omega)
      simp only [chars, Option.getD_some, List.cons_append, List.append_assoc, List.nil_append]
      rw [value?_object (skipBlank_newLine _ _) (by decide), read, Option.map_some]
termination_by fuel

theorem items?_chars (item : Json) (items : List Json) (printable : PrintableItems (item :: items))
    {level outer fuel : Nat} {rest : List Char}
    (enough : 2 * ((chars level item).length + (itemChars level items).length) + 1 < fuel) :
    items? fuel (newLine level ++ (chars level item ++
      (itemChars level items ++ (newLine outer ++ ']' :: rest)))) = some (item :: items, rest) := by
  obtain ⟨fuel, rfl⟩ : ∃ less, fuel = less + 1 := ⟨fuel - 1, by omega⟩
  obtain ⟨first, others⟩ := printable
  match items with
  | [] =>
      have read := @value?_chars item first level fuel _ (closes_newLine outer (']' :: rest))
        (by omega)
      rw [items?, value?_newLine, itemChars, List.nil_append, read]
      simp only [bind, Option.bind_some, skipBlank_newLine]
      rfl
  | next :: items =>
      have read := @value?_chars item first level fuel _
        (closes_comma (newLine level ++ (chars level next ++
          (itemChars level items ++ (newLine outer ++ ']' :: rest))))) (by omega)
      have more := @items?_chars next items others level outer fuel rest (by
          simp only [itemChars, List.cons_append, List.length_cons, List.length_append] at enough
          omega)
      rw [items?, value?_newLine]
      simp only [itemChars, List.cons_append, List.append_assoc]
      rw [read]
      simp only [bind, Option.bind_some, skipBlank_comma, more]
termination_by fuel

theorem fields?_chars (name : String) (value : Json) (fields : List (Option String × Json))
    (printable : value.Printable) (others : PrintableFields fields)
    {level outer fuel : Nat} {rest : List Char}
    (enough : 2 * ((quote name).length + (chars level value).length +
      (fieldChars level fields).length) + 1 < fuel) :
    fields? fuel (newLine level ++ (quote name ++ (':' :: ' ' :: (chars level value ++
      (fieldChars level fields ++ (newLine outer ++ '\x7d' :: rest)))))) =
        some ((some name, value) :: fields, rest) := by
  obtain ⟨fuel, rfl⟩ : ∃ less, fuel = less + 1 := ⟨fuel - 1, by omega⟩
  have called := quoted?_escape name
  have opened (back : List Char) : skipBlank (newLine level ++ (quote name ++ back)) =
      '\"' :: (name.toList.flatMap escape ++ '\"' :: back) := by
    rw [skipBlank_newLine, quote, List.cons_append, List.cons_append, List.append_assoc]
    rfl
  rw [fields?, opened]
  simp only [called, bind, Option.bind_some, skipBlank_colon, value?_space]
  match fields with
  | [] =>
      have read := @value?_chars value printable level fuel _
        (closes_newLine outer ('\x7d' :: rest)) (by omega)
      rw [fieldChars, List.nil_append, read]
      simp only [Option.bind_some, skipBlank_newLine]
      rfl
  | (none, next) :: fields => exact absurd others.1 (by simp)
  | (some second, next) :: fields =>
      have read := @value?_chars value printable level fuel _
        (closes_comma (newLine level ++ (quote second ++ (':' :: ' ' :: (chars level next ++
          (fieldChars level fields ++ (newLine outer ++ '\x7d' :: rest))))))) (by omega)
      have more := @fields?_chars second next fields others.2.1 others.2.2 level outer fuel rest (by
          simp only [fieldChars, Option.getD_some, List.cons_append, List.length_cons,
            List.length_append] at enough
          omega)
      simp only [fieldChars, Option.getD_some, List.cons_append, List.append_assoc]
      rw [read]
      simp only [Option.bind_some, skipBlank_comma, more]
termination_by fuel

end

/-- A value that can be written is read back. -/
theorem read?_write {value : Json} (printable : value.Printable) :
    read? (write value) = some value := by
  have read := @value?_chars value printable 0 (2 * (chars 0 value).length + 1) [] ⟨nofun, nofun⟩
    (by omega)
  rw [List.append_nil] at read
  simp only [read?, write, String.toList_ofList, read, bind, Option.bind_some]
  rfl

end PaperFolding.Json
