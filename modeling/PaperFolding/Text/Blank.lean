/-!
Cutting texts apart at single characters, and the white space that separates words.
-/

namespace PaperFolding.Text

/-- The 25 characters with the Unicode property White_Space, as closed ranges of code points. -/
def blankRanges : List (Nat × Nat) :=
  [(0x09, 0x0D), (0x20, 0x20), (0x85, 0x85), (0xA0, 0xA0), (0x1680, 0x1680), (0x2000, 0x200A),
    (0x2028, 0x2029), (0x202F, 0x202F), (0x205F, 0x205F), (0x3000, 0x3000)]

def isBlank (c : Char) : Bool :=
  blankRanges.any fun range => range.1 ≤ c.toNat && c.toNat ≤ range.2

/-- The pieces between the characters at which `cut` holds; there is always at least one. -/
def pieces (cut : Char → Bool) : List Char → List (List Char)
  | [] => [[]]
  | c :: text =>
      if cut c then [] :: pieces cut text
      else
        match pieces cut text with
        | [] => [[c]]
        | piece :: others => (c :: piece) :: others

@[simp] theorem pieces_nil (cut : Char → Bool) : pieces cut [] = [[]] := rfl

theorem pieces_ne_nil (cut : Char → Bool) (text : List Char) : pieces cut text ≠ [] := by
  cases text with
  | nil => simp [pieces]
  | cons c text =>
      unfold pieces
      split
      · simp
      · split <;> simp

theorem pieces_append {cut : Char → Bool} {c : Char} (cuts : cut c = true)
    (front back : List Char) :
    pieces cut (front ++ c :: back) = pieces cut front ++ pieces cut back := by
  induction front with
  | nil => simp [pieces, cuts]
  | cons first front induction =>
      rw [List.cons_append, pieces, pieces, induction]
      split
      · rfl
      · cases held : pieces cut front with
        | nil => exact absurd held (pieces_ne_nil cut front)
        | cons piece others => rfl

theorem pieces_of_uncut {cut : Char → Bool} {text : List Char} (uncut : ∀ c ∈ text, cut c = false) :
    pieces cut text = [text] := by
  induction text with
  | nil => rfl
  | cons c text induction =>
      rw [List.forall_mem_cons] at uncut
      rw [pieces, induction uncut.2]
      simp [uncut.1]

theorem mem_of_mem_pieces {cut : Char → Bool} {text piece : List Char}
    (among : piece ∈ pieces cut text) : ∀ c ∈ piece, c ∈ text ∧ cut c = false := by
  induction text generalizing piece with
  | nil => simp_all
  | cons first text induction =>
      rw [pieces] at among
      split at among
      · rcases List.mem_cons.1 among with rfl | among
        · simp
        · exact fun c inside => (induction among c inside).imp_left (List.mem_cons_of_mem first)
      · rename_i uncut
        split at among
        · rename_i held
          exact absurd held (pieces_ne_nil cut text)
        · rename_i head others held
          rw [held] at induction
          rcases List.mem_cons.1 among with rfl | among
          · intro c inside
            rcases List.mem_cons.1 inside with rfl | inside
            · exact ⟨List.mem_cons_self .., by simpa using uncut⟩
            · exact (induction (List.mem_cons_self ..) c inside).imp_left
                (List.mem_cons_of_mem first)
          · exact fun c inside => (induction (List.mem_cons_of_mem head among) c inside).imp_left
              (List.mem_cons_of_mem first)

def runs (cut : Char → Bool) (text : List Char) : List (List Char) :=
  (pieces cut text).filter fun piece => !piece.isEmpty

@[simp] theorem runs_nil (cut : Char → Bool) : runs cut [] = [] := rfl

theorem runs_append {cut : Char → Bool} {c : Char} (cuts : cut c = true) (front back : List Char) :
    runs cut (front ++ c :: back) = runs cut front ++ runs cut back := by
  rw [runs, pieces_append cuts, List.filter_append]
  rfl

theorem runs_of_uncut {cut : Char → Bool} {text : List Char} (uncut : ∀ c ∈ text, cut c = false)
    (inhabited : text ≠ []) : runs cut text = [text] := by
  rw [runs, pieces_of_uncut uncut]
  cases text with
  | nil => exact absurd rfl inhabited
  | cons c text => rfl

def words (text : List Char) : List (List Char) :=
  runs isBlank text

def trimStart (text : List Char) : List Char :=
  text.dropWhile isBlank

def trimEnd (text : List Char) : List Char :=
  (text.reverse.dropWhile isBlank).reverse

def trim (text : List Char) : List Char :=
  trimEnd (trimStart text)

theorem trimEnd_prefix (text : List Char) : trimEnd text <+: text := by
  have suffix : text.reverse.dropWhile isBlank <:+ text.reverse := List.dropWhile_suffix _
  have flipped := List.reverse_prefix.2 suffix
  rwa [List.reverse_reverse] at flipped

theorem trimEnd_append_of_blank (front : List Char) {blanks : List Char}
    (blank : ∀ c ∈ blanks, isBlank c = true) : trimEnd (front ++ blanks) = trimEnd front := by
  rw [trimEnd, List.reverse_append, List.dropWhile_append_of_pos, trimEnd]
  simpa using blank

theorem exists_trimEnd_append (text : List Char) :
    ∃ blanks, text = trimEnd text ++ blanks ∧ ∀ c ∈ blanks, isBlank c = true := by
  refine ⟨(text.reverse.takeWhile isBlank).reverse, ?_, ?_⟩
  · rw [trimEnd, ← List.reverse_append, List.takeWhile_append_dropWhile, List.reverse_reverse]
  · intro c among
    have all := List.all_takeWhile (p := isBlank) (l := text.reverse)
    exact List.all_eq_true.1 all c (List.mem_reverse.1 among)

theorem trimEnd_concat {c : Char} (front : List Char) (visible : isBlank c = false) :
    trimEnd (front ++ [c]) = front ++ [c] := by
  simp [trimEnd, visible]

theorem trimEnd_append (front : List Char) {back : List Char} (visible : trimEnd back ≠ []) :
    trimEnd (front ++ back) = front ++ trimEnd back := by
  have rest : back.reverse.dropWhile isBlank ≠ [] := by simpa [trimEnd] using visible
  rw [trimEnd, List.reverse_append, List.dropWhile_append]
  cases held : back.reverse.dropWhile isBlank with
  | nil => exact absurd held rest
  | cons c others => simp [trimEnd, held]

theorem trim_trimEnd (text : List Char) : trim (trimEnd text) = trim text := by
  obtain ⟨blanks, whole, blank⟩ := exists_trimEnd_append text
  have nothing : blanks.dropWhile isBlank = [] := by
    rw [← List.append_nil blanks, List.dropWhile_append_of_pos blank]
    rfl
  generalize trimEnd text = kept at whole
  subst whole
  rw [trim, trim, trimStart, trimStart, List.dropWhile_append, nothing]
  split
  · rename_i empty
    rw [List.isEmpty_iff.1 empty]
  · rw [trimEnd_append_of_blank _ blank]

def contains (part : List Char) : List Char → Bool
  | [] => part.isEmpty
  | c :: text => part.isPrefixOf (c :: text) || contains part text

end PaperFolding.Text
