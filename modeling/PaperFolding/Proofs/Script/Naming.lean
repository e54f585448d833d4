import PaperFolding.Proofs.Script.Construction

/-!
Scripts that name a file. Whatever stands between the brackets is one token, or the beginning of one that
is never finished, so it brings no words with it.
-/

namespace PaperFolding.Script

/-! ## Groups -/

theorem spaceless_scan {text : List Char} (unclosed : ']' ∉ text) (afterSpace : Bool) :
    ' ' ∉ scan afterSpace true text := by
  induction text generalizing afterSpace with
  | nil => exact List.not_mem_nil
  | cons c text induction =>
      have others := induction (List.not_mem_of_not_mem_cons unclosed)
      have mark : ' ' ≠ gap true := by decide
      rcases char_cases c with rfl | rfl | ⟨-, -, gapped⟩ | ⟨opening, closing, other⟩
      · cases afterSpace <;> simp [others, mark]
      · exact absurd (List.mem_cons_self ..) unclosed
      · cases afterSpace <;> simp [gapped, others, mark]
      · have visible : ' ' ≠ c := by
          rintro rfl
          cases other
        simp [scan_other _ _ _ opening closing other, others, visible]

theorem read_open {text : List Char} (unclosed : ']' ∉ text) :
    read ('[' :: text) = ['[' :: scan false true text] := by
  rw [read, scan_bracket_true]
  exact cut_word (by simp [spaceless_scan unclosed]) (by simp)

theorem read_group {text : List Char} (unclosed : ']' ∉ text) :
    read ('[' :: text ++ [']']) = ['[' :: scan false true text ++ [']']] := by
  have written : scan true false ('[' :: text ++ [']']) =
      ('[' :: scan false true text ++ [']']) ++ [' '] := by
    rw [List.cons_append, scan_bracket_true, scan_append]
    simp
  rw [read, written, cut_trailing]
  exact cut_word (by simp [spaceless_scan unclosed]) (by simp)

/-! ## Comments -/

theorem stripComments_endless {text : List Char} (endless : '\x7d' ∉ text) :
    stripComments true text = [] := by
  induction text with
  | nil => rfl
  | cons c text induction =>
      have other : c ≠ '\x7d' := (List.ne_of_not_mem_cons endless).symm
      simp [stripComments, other, induction (List.not_mem_of_not_mem_cons endless)]

/-- What follows is left as it is, or a comment that is never closed takes all of it. -/
theorem stripComments_front (inside : Bool) (front back : List Char)
    (uncommented : '\x7b' ∉ back) (endless : '\x7d' ∉ back) :
    ∃ kept ⊆ front, stripComments inside (front ++ back) = kept ++ back ∨
      stripComments inside (front ++ back) = kept := by
  induction front generalizing inside with
  | nil =>
      refine ⟨[], List.Subset.refl _, ?_⟩
      cases inside with
      | true => exact .inr (stripComments_endless endless)
      | false => exact .inl (stripComments_of_notMem uncommented)
  | cons c front induction =>
      rw [List.cons_append, stripComments]
      split
      · obtain ⟨kept, among, strips⟩ := induction (c ≠ '\x7d')
        exact ⟨kept, List.subset_cons_of_subset c among, strips⟩
      · obtain ⟨kept, among, strips⟩ := induction false
        refine ⟨c :: kept, List.cons_subset_cons c among, strips.imp ?_ ?_⟩
        · exact fun strips => congrArg (List.cons c) strips
        · exact fun strips => congrArg (List.cons c) strips

/-! ## Words -/

theorem isFragment_of_mem {token : List Char} (opened : '[' ∈ token) :
    isFragment (String.ofList token) = true := by
  simpa [isFragment] using ⟨'[', opened, rfl⟩

theorem read_filename (back : List Char) :
    read ("filename [".toList ++ back) = "filename".toList :: read ('[' :: back) := by
  have split : "filename [".toList ++ back = "filename".toList ++ ' ' :: '[' :: back := rfl
  have name : read "filename".toList = ["filename".toList] := by decide
  rw [split, read_join (by decide), name]
  rfl

/-- A script that names a file has at most one word more than that. -/
theorem tokens_naming {path word : String} (unclosed : ']' ∉ path.toList)
    (plain : Plain word.toList) (endless : '\x7d' ∉ word.toList) (inhabited : word.toList ≠ []) :
    ∃ group, isFragment group = true ∧
      (tokens ("filename [" ++ path ++ "] " ++ word) = [Parameter.filename.name, group, word] ∨
        tokens ("filename [" ++ path ++ "] " ++ word) = [Parameter.filename.name, group]) := by
  have chars : ("filename [" ++ path ++ "] " ++ word).toList =
      "filename [".toList ++ (path.toList ++ ']' :: ' ' :: word.toList) := by simp
  have strip (rest : List Char) : stripComments false ("filename [".toList ++ rest) =
      "filename [".toList ++ stripComments false rest := rfl
  obtain ⟨kept, inside, strips⟩ := stripComments_front false path.toList
    (']' :: ' ' :: word.toList) (by simpa using plain.uncommented) (by simpa using endless)
  have unclosed : ']' ∉ kept := fun among => unclosed (inside among)
  have name : String.ofList "filename".toList = Parameter.filename.name := rfl
  rw [tokens_eq_read, chars, strip, read_filename, List.map_cons, name]
  rcases strips with strips | strips
  · refine ⟨String.ofList ('[' :: scan false true kept ++ [']']),
      isFragment_of_mem (List.mem_cons_self ..), .inl ?_⟩
    have split : '[' :: (kept ++ ']' :: ' ' :: word.toList) =
        ('[' :: kept ++ [']']) ++ ' ' :: word.toList := by simp
    rw [strips, split, read_join (openAfter_closing false ('[' :: kept)), read_group unclosed,
      plain.read_eq inhabited, List.singleton_append, List.map_cons, List.map_cons,
      String.ofList_toList]
    rfl
  · refine ⟨String.ofList ('[' :: scan false true kept),
      isFragment_of_mem (List.mem_cons_self ..), .inr ?_⟩
    rw [strips, read_open unclosed]
    rfl

/-! ## Paths that can be named -/

/-- A path that stands for itself between brackets. -/
structure Nameable (path : String) : Prop where
  inhabited : path ≠ ""
  itself : (tokens ("[" ++ path ++ "]")).map argument = [path]

instance (path : String) : Decidable (Nameable path) :=
  decidable_of_iff (path ≠ "" ∧ (tokens ("[" ++ path ++ "]")).map argument = [path])
    ⟨fun both => ⟨both.1, both.2⟩, fun both => ⟨both.inhabited, both.itself⟩⟩

/-- The token that a path between brackets is read as. -/
def fileToken (path : String) : String :=
  String.ofList ('[' :: scan false true path.toList ++ [']'])

theorem isFragment_fileToken (path : String) : isFragment (fileToken path) = true :=
  isFragment_of_mem (List.mem_cons_self ..)

theorem mem_argument {token : String} {c : Char} (among : c ∈ (argument token).toList) :
    ∃ origin ∈ token.toList, isBracket origin = false ∧ unmark origin = c := by
  rw [argument, String.toList_ofList] at among
  have among := (List.dropWhile_sublist _).subset ((Text.trimEnd_prefix _).subset among)
  obtain ⟨origin, inside, rfl⟩ := List.mem_map.1 among
  rw [List.mem_filter, Bool.not_eq_true'] at inside
  exact ⟨origin, inside.1, inside.2, rfl⟩

theorem mem_read {text token : List Char} {c : Char} (among : token ∈ read text) (inside : c ∈ token) :
    c ∈ scan true false text :=
  (Text.mem_of_mem_pieces (List.mem_filter.1 among).1 c inside).1

theorem uncommented_tokens {source token : String} (among : token ∈ tokens source) :
    '\x7b' ∉ token.toList := by
  rw [tokens_eq_read] at among
  obtain ⟨chars, written, rfl⟩ := List.mem_map.1 among
  rw [String.toList_ofList]
  intro inside
  exact uncommented_scan (fun comment => (mem_stripComments comment).2 rfl) (mem_read written inside)

namespace Nameable

variable {path word : String}

theorem exists_token (nameable : Nameable path) :
    ∃ token, tokens ("[" ++ path ++ "]") = [token] ∧ argument token = path := by
  obtain ⟨token, reads, same⟩ := List.map_eq_singleton_iff.1 nameable.itself
  exact ⟨token, reads, same⟩

theorem unclosed (nameable : Nameable path) : ']' ∉ path.toList := by
  obtain ⟨token, -, same⟩ := nameable.exists_token
  rw [← same]
  intro among
  obtain ⟨origin, -, plain, closing⟩ := mem_argument among
  unfold unmark at closing
  split at closing
  · cases closing
  · subst closing
    cases plain

theorem uncommented (nameable : Nameable path) : '\x7b' ∉ path.toList := by
  obtain ⟨token, reads, same⟩ := nameable.exists_token
  rw [← same]
  intro among
  obtain ⟨origin, inside, -, comment⟩ := mem_argument among
  unfold unmark at comment
  split at comment
  · cases comment
  · subst comment
    exact uncommented_tokens (by rw [reads]; exact List.mem_singleton_self token) inside

theorem read_group (nameable : Nameable path) :
    (read ('[' :: path.toList ++ [']'])).map String.ofList = [fileToken path] := by
  rw [Script.read_group nameable.unclosed]
  rfl

theorem argument_fileToken (nameable : Nameable path) : argument (fileToken path) = path := by
  have itself := nameable.itself
  have chars : ("[" ++ path ++ "]").toList = '[' :: path.toList ++ [']'] := by simp
  rw [tokens_of_uncommented (by simpa using nameable.uncommented), chars, nameable.read_group] at itself
  exact (List.cons.inj itself).1

/-- Such a path and a word behind it are read as just that. -/
theorem standalone (nameable : Nameable path) (plain : Plain word.toList)
    (inhabited : word.toList ≠ []) :
    Standalone ("filename [" ++ path ++ "] " ++ word)
      [Parameter.filename.name, fileToken path, word] := by
  have whole : ("filename [" ++ path ++ "] " ++ word).toList =
      "filename [".toList ++ (path.toList ++ ']' :: ' ' :: word.toList) := by simp
  refine ⟨?_, ?_, by simp [nameable.uncommented, plain.uncommented]⟩
  · have split : '[' :: (path.toList ++ ']' :: ' ' :: word.toList) =
        ('[' :: path.toList ++ [']']) ++ ' ' :: word.toList := by simp
    rw [whole, read_filename, split, read_join (openAfter_closing false ('[' :: path.toList)),
      plain.read_eq inhabited, List.map_cons, List.map_append, nameable.read_group]
    simp only [List.map_cons, List.map_nil, List.singleton_append, String.ofList_toList]
    rfl
  · have split : "filename [".toList ++ (path.toList ++ ']' :: ' ' :: word.toList) =
        "filename ".toList ++ ('[' :: path.toList ++ [']']) ++ ' ' :: word.toList := by simp
    have space (text : List Char) : openAfter false (' ' :: text) = openAfter false text := rfl
    rw [whole, split, openAfter_append, openAfter_append, openAfter_closing, space,
      plain.openAfter_eq]

/-- A script that names such a path and goes on with a word is read as just that. -/
theorem tokens_eq (nameable : Nameable path) (plain : Plain word.toList)
    (inhabited : word.toList ≠ []) :
    ∃ group, isFragment group = true ∧ argument group = path ∧
      tokens ("filename [" ++ path ++ "] " ++ word) = [Parameter.filename.name, group, word] := by
  have names := nameable.standalone plain inhabited
  refine ⟨fileToken path, isFragment_fileToken path, nameable.argument_fileToken, ?_⟩
  rw [tokens_of_uncommented names.uncommented, names.reads]

end Nameable

end PaperFolding.Script
