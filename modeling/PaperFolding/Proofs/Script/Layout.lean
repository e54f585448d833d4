import Mathlib.Logic.Relation
import PaperFolding.Proofs.Script.Lines

/-!
How a script is laid out. Space can be widened and narrowed, put in front of a group or behind one, and
comments can be added anywhere: the flat form of the script stays the same. Nothing else is lost in it, so
scripts with the same flat form differ in layout only.
-/

namespace PaperFolding.Script

/-! ## Space -/

theorem scan_run {run : List Char} (inhabited : run ≠ []) (blank : ∀ c ∈ run, isGap c = true)
    (afterSpace inBrackets : Bool) (text : List Char) :
    scan afterSpace inBrackets (run ++ text) = scan afterSpace inBrackets (' ' :: text) := by
  induction run generalizing afterSpace with
  | nil => exact absurd rfl inhabited
  | cons c run induction =>
      obtain ⟨gapped, others⟩ := List.forall_mem_cons.1 blank
      rw [List.cons_append, scan_gap gapped]
      by_cases last : run = []
      · rw [last, List.nil_append]
      · have narrowed := induction last others true
        rw [scan_gap_true _ _ rfl] at narrowed
        cases afterSpace with
        | true => rw [scan_gap_true _ _ rfl, scan_gap_true _ _ rfl, narrowed]
        | false => rw [scan_gap_false _ _ rfl, scan_gap_false _ _ rfl, narrowed]

theorem scan_space_opening (afterSpace inBrackets : Bool) (text : List Char) :
    scan afterSpace inBrackets (' ' :: '[' :: text) = scan afterSpace inBrackets ('[' :: text) := by
  cases afterSpace with
  | true => rw [scan_gap_true _ _ rfl]
  | false => rw [scan_gap_false _ _ rfl, scan_bracket_true, scan_bracket_false]

theorem scan_closing_space (afterSpace inBrackets : Bool) (text : List Char) :
    scan afterSpace inBrackets (']' :: ' ' :: text) = scan afterSpace inBrackets (']' :: text) := by
  rw [scan_closing, scan_closing, scan_gap_true _ _ rfl]

/-- A run of white space. -/
structure Spacing (run : String) : Prop where
  inhabited : run.toList ≠ []
  blank : ∀ c ∈ run.toList, isGap c = true

instance (run : String) : Decidable (Spacing run) :=
  decidable_of_iff (run.toList ≠ [] ∧ run.toList.all isGap = true)
    ⟨fun ⟨inhabited, all⟩ => ⟨inhabited, List.all_eq_true.1 all⟩,
      fun spacing => ⟨spacing.inhabited, List.all_eq_true.2 spacing.blank⟩⟩

/-! ## Comments -/

theorem stripComments_run {run : List Char} (blank : ∀ c ∈ run, isGap c = true)
    (text : List Char) :
    stripComments false (run ++ text) = run ++ stripComments false text ∧
      stripComments true (run ++ text) = stripComments true text := by
  induction run with
  | nil => exact ⟨rfl, rfl⟩
  | cons c run induction =>
      obtain ⟨gapped, others⟩ := List.forall_mem_cons.1 blank
      have opening : c ≠ '\x7b' := by
        rintro rfl
        cases gapped
      have closing : c ≠ '\x7d' := by
        rintro rfl
        cases gapped
      obtain ⟨outside, inside⟩ := induction others
      simp [stripComments, opening, closing, outside, inside]

theorem stripComments_closing {remark : List Char} (unclosed : '\x7d' ∉ remark)
    (text : List Char) :
    stripComments true (remark ++ '\x7d' :: text) = stripComments false text := by
  induction remark with
  | nil => rfl
  | cons c remark induction =>
      have other : c ≠ '\x7d' := (List.ne_of_not_mem_cons unclosed).symm
      rw [List.cons_append, stripComments, Bool.true_or, if_pos rfl, decide_eq_true other]
      exact induction (List.not_mem_of_not_mem_cons unclosed)

theorem commentAfter_append (inside : Bool) (front back : List Char) :
    commentAfter inside (front ++ back) = commentAfter (commentAfter inside front) back := by
  induction front generalizing inside with
  | nil => rfl
  | cons c front induction => exact induction _

theorem commentAfter_endless {text : List Char} (endless : '\x7d' ∉ text) :
    commentAfter true text = true := by
  induction text with
  | nil => rfl
  | cons c text induction =>
      have other : c ≠ '\x7d' := (List.ne_of_not_mem_cons endless).symm
      rw [commentAfter, Bool.true_or, Bool.true_and, decide_eq_true other]
      exact induction (List.not_mem_of_not_mem_cons endless)

theorem stripComments_comment {remark : List Char} (unclosed : '\x7d' ∉ remark)
    (text : List Char) :
    stripComments false ('\x7b' :: (remark ++ '\x7d' :: text)) = stripComments false text :=
  stripComments_closing unclosed text

/-! ## Scripts that differ in layout -/

/-- Two texts that are the same to every scan, whether they stand inside a comment or outside of one,
can stand for each other. -/
theorem flatten_congr {text other : List Char}
    (outside : ∀ afterSpace inBrackets, scan afterSpace inBrackets (stripComments false text) =
      scan afterSpace inBrackets (stripComments false other))
    (inside : stripComments true text = stripComments true other) (front : List Char) :
    flatten (front ++ text) = flatten (front ++ other) := by
  rw [flatten_eq_scan, flatten_eq_scan, stripComments_append, stripComments_append, scan_append,
    scan_append]
  cases commentAfter false front with
  | false => rw [outside]
  | true => rw [inside]

theorem flatten_run {run : List Char} (inhabited : run ≠ []) (blank : ∀ c ∈ run, isGap c = true)
    (front back : List Char) :
    flatten (front ++ (run ++ back)) = flatten (front ++ ' ' :: back) := by
  obtain ⟨outside, inside⟩ := stripComments_run blank back
  have inside : stripComments true (run ++ back) = stripComments true (' ' :: back) := inside
  refine flatten_congr (fun afterSpace inBrackets => ?_) inside front
  rw [outside, scan_run inhabited blank]
  rfl

theorem flatten_space_opening (front back : List Char) :
    flatten (front ++ ' ' :: '[' :: back) = flatten (front ++ '[' :: back) := by
  have inside : stripComments true (' ' :: '[' :: back) = stripComments true ('[' :: back) := rfl
  exact flatten_congr (fun _ _ => scan_space_opening _ _ _) inside front

theorem flatten_closing_space (front back : List Char) :
    flatten (front ++ ']' :: ' ' :: back) = flatten (front ++ ']' :: back) := by
  have inside : stripComments true (']' :: ' ' :: back) = stripComments true (']' :: back) := rfl
  exact flatten_congr (fun _ _ => scan_closing_space _ _ _) inside front

theorem flatten_comment {front remark : List Char} (outside : commentAfter false front = false)
    (unclosed : '\x7d' ∉ remark) (back : List Char) :
    flatten (front ++ '\x7b' :: (remark ++ '\x7d' :: back)) = flatten (front ++ back) := by
  rw [flatten_eq_scan, flatten_eq_scan, stripComments_append, stripComments_append, outside,
    stripComments_comment unclosed]

/-- One change of layout: other white space in the place of white space, white space in front of an
opening bracket or behind a closing one, or a comment that does not stand inside of another. -/
inductive Relaid : String → String → Prop
  | respaced (front run other back : String) (spacing : Spacing run) (otherwise : Spacing other) :
      Relaid (front ++ run ++ back) (front ++ other ++ back)
  | openingSpaced (front run back : String) (spacing : Spacing run) :
      Relaid (front ++ "[" ++ back) (front ++ run ++ "[" ++ back)
  | closingSpaced (front run back : String) (spacing : Spacing run) :
      Relaid (front ++ "]" ++ back) (front ++ "]" ++ run ++ back)
  | commented (front remark back : String) (outside : commentAfter false front.toList = false)
      (unclosed : '\x7d' ∉ remark.toList) :
      Relaid (front ++ back) (front ++ "\x7b" ++ remark ++ "\x7d" ++ back)

theorem Relaid.flatten_eq {source other : String} (relaid : Relaid source other) :
    flatten source.toList = flatten other.toList := by
  cases relaid with
  | respaced front run other back spacing otherwise =>
      simp only [String.toList_append, List.append_assoc]
      rw [flatten_run spacing.inhabited spacing.blank,
        flatten_run otherwise.inhabited otherwise.blank]
  | openingSpaced front run back spacing =>
      have bracket : "[".toList = ['['] := rfl
      simp only [String.toList_append, List.append_assoc, bracket, List.cons_append,
        List.nil_append]
      rw [flatten_run spacing.inhabited spacing.blank, flatten_space_opening]
  | closingSpaced front run back spacing =>
      have bracket : "]".toList = [']'] := rfl
      have split (text : List Char) :
          front.toList ++ ']' :: text = front.toList ++ [']'] ++ text := by simp
      simp only [String.toList_append, List.append_assoc, bracket, List.cons_append,
        List.nil_append]
      rw [split (run.toList ++ back.toList), flatten_run spacing.inhabited spacing.blank, ← split,
        flatten_closing_space]
  | commented front remark back outside unclosed =>
      have opening : "\x7b".toList = ['\x7b'] := rfl
      have closing : "\x7d".toList = ['\x7d'] := rfl
      simp only [String.toList_append, List.append_assoc, opening, closing, List.cons_append,
        List.nil_append]
      rw [flatten_comment outside unclosed]

/-- Scripts that differ in layout only have the same flat form. -/
theorem canonical_eq_of_relaid {source other : String}
    (relaid : Relation.EqvGen Relaid source other) : canonical source = canonical other := by
  induction relaid with
  | rel source other step => rw [canonical, canonical, step.flatten_eq]
  | refl source => rfl
  | symm source other _ induction => exact induction.symm
  | trans source middle other _ _ first second => exact first.trans second

theorem canonical_eq_of_relaid_square :
    Relation.EqvGen Relaid "paper[square]\tnew" "paper [square]\n\x7bflat \x7d  new" ∧
      canonical "paper[square]\tnew" = canonical "paper [square]\n\x7bflat \x7d  new" := by
  have opened : Relaid "paper[square]\tnew" "paper [square]\tnew" :=
    .openingSpaced "paper" " " "square]\tnew" (by decide)
  have closed : Relaid "paper [square]\tnew" "paper [square]\n\tnew" :=
    .closingSpaced "paper [square" "\n" "\tnew" (by decide)
  have widened : Relaid "paper [square]\n\tnew" "paper [square]\n  new" :=
    .respaced "paper [square]" "\n\t" "\n  " "new" (by decide) (by decide)
  have remarked : Relaid "paper [square]\n  new" "paper [square]\n\x7bflat \x7d  new" :=
    .commented "paper [square]\n" "flat " "  new" (by decide) (by decide)
  have relaid : Relation.EqvGen Relaid "paper[square]\tnew" "paper [square]\n\x7bflat \x7d  new" :=
    .trans _ _ _ (.trans _ _ _ (.rel _ _ opened) (.rel _ _ closed))
      (.trans _ _ _ (.rel _ _ widened) (.rel _ _ remarked))
  exact ⟨relaid, canonical_eq_of_relaid relaid⟩

/-! ## Scripts with the same flat form -/

/-- The texts differ in layout only. -/
def Laid (text other : List Char) : Prop :=
  Relation.EqvGen Relaid (String.ofList text) (String.ofList other)

namespace Laid

theorem refl (text : List Char) : Laid text text := Relation.EqvGen.refl _

theorem symm {text other : List Char} (laid : Laid text other) : Laid other text :=
  Relation.EqvGen.symm _ _ laid

theorem trans {text middle other : List Char} (first : Laid text middle)
    (second : Laid middle other) : Laid text other := Relation.EqvGen.trans _ _ _ first second

theorem of_relaid {text other : List Char}
    (relaid : Relaid (String.ofList text) (String.ofList other)) : Laid text other :=
  Relation.EqvGen.rel _ _ relaid

variable (front back : List Char)

theorem respaced {run other : List Char} (spacing : Spacing (String.ofList run))
    (otherwise : Spacing (String.ofList other)) :
    Laid (front ++ (run ++ back)) (front ++ (other ++ back)) := by
  have step := Relaid.respaced (String.ofList front) (String.ofList run) (String.ofList other)
    (String.ofList back) spacing otherwise
  simp only [← String.ofList_append, List.append_assoc] at step
  exact of_relaid step

theorem opening : Laid (front ++ '[' :: back) (front ++ ' ' :: '[' :: back) := by
  have step := Relaid.openingSpaced (String.ofList front) " " (String.ofList back) (by decide)
  have space : " " = String.ofList [' '] := rfl
  have bracket : "[" = String.ofList ['['] := rfl
  simp only [space, bracket, ← String.ofList_append, List.append_assoc] at step
  exact of_relaid step

theorem closing : Laid (front ++ ']' :: back) (front ++ ']' :: ' ' :: back) := by
  have step := Relaid.closingSpaced (String.ofList front) " " (String.ofList back) (by decide)
  have space : " " = String.ofList [' '] := rfl
  have bracket : "]" = String.ofList [']'] := rfl
  simp only [space, bracket, ← String.ofList_append, List.append_assoc] at step
  exact of_relaid step

theorem commented {remark : List Char} (outside : commentAfter false front = false)
    (unclosed : '\x7d' ∉ remark) :
    Laid (front ++ back) (front ++ '\x7b' :: (remark ++ '\x7d' :: back)) := by
  have step := Relaid.commented (String.ofList front) (String.ofList remark) (String.ofList back)
    (by simpa using outside) (by simpa using unclosed)
  have left : "\x7b" = String.ofList ['\x7b'] := rfl
  have right : "\x7d" = String.ofList ['\x7d'] := rfl
  simp only [left, right, ← String.ofList_append, List.append_assoc] at step
  exact of_relaid step

variable {front}

/-- Closed comments can be left out. -/
theorem uncommented {text : List Char} (outside : commentAfter false front = false)
    (closed : commentAfter false text = false) :
    Laid (front ++ text) (front ++ stripComments false text) := by
  induction size : text.length using Nat.strongRecOn generalizing front text with
  | _ count induction =>
      cases text with
      | nil => exact refl _
      | cons c text =>
          rw [List.length_cons] at size
          by_cases comment : c = '\x7b'
          · subst comment
            have inside : commentAfter true text = false := closed
            have ends : '\x7d' ∈ text := by
              by_contra endless
              rw [commentAfter_endless endless] at inside
              cases inside
            obtain ⟨remark, back, rfl, unclosed⟩ := List.eq_append_cons_of_mem ends
            have shut : commentAfter false back = false := by
              rwa [commentAfter_append, commentAfter_endless unclosed] at inside
            rw [List.length_append, List.length_cons] at size
            rw [stripComments_comment unclosed]
            exact (commented front back outside unclosed).symm.trans
              (induction back.length (by omega) outside shut rfl)
          · have kept : stripComments false (c :: text) = c :: stripComments false text := by
              simp [stripComments, comment]
            have passed : commentAfter false (front ++ [c]) = false := by
              rw [commentAfter_append, outside]
              simp [commentAfter, comment]
            have rest : commentAfter false text = false := by
              simpa [commentAfter, comment] using closed
            rw [kept, List.append_cons front c text,
              List.append_cons front c (stripComments false text)]
            exact induction text.length (by omega) passed rest rfl

/-- Space can be laid out as a scan writes it. -/
theorem scanned {text : List Char} {afterSpace : Bool} (inBrackets : Bool)
    (unmarked : spaceMark ∉ text) (spaced : afterSpace = true → ∃ before, front = before ++ [' ']) :
    Laid (front ++ text) (front ++ (scan afterSpace inBrackets text).map unmark) := by
  induction text generalizing front afterSpace inBrackets with
  | nil => exact refl _
  | cons c text induction =>
      have own : c ≠ spaceMark := (List.ne_of_not_mem_cons unmarked).symm
      have others : spaceMark ∉ text := List.not_mem_of_not_mem_cons unmarked
      have opened : unmark '[' = '[' := rfl
      have closed : unmark ']' = ']' := rfl
      have space : unmark ' ' = ' ' := rfl
      rcases char_cases c with rfl | rfl | ⟨open', close', gapped⟩ | ⟨open', close', other⟩
      · cases afterSpace with
        | true =>
            rw [scan_bracket_true, List.map_cons, opened, List.append_cons front '[' text,
              List.append_cons front '[' ((scan false true text).map unmark)]
            exact induction true others nofun
        | false =>
            rw [scan_bracket_false, List.map_cons, List.map_cons, unmark_gap, opened]
            refine (opening front text).trans ?_
            have later := @induction (front ++ [' ', '[']) false true others nofun
            simpa using later
      · rw [scan_closing, List.map_cons, List.map_cons, closed, space]
        refine (closing front text).trans ?_
        have later := @induction (front ++ [']', ' ']) true false others
          fun _ => ⟨front ++ [']'], by simp⟩
        simpa using later
      · have one : Spacing (String.ofList [c]) := ⟨by simp, by simp [gapped]⟩
        have single : Spacing (String.ofList [' ']) := by decide
        have blank : isGap ' ' = true := rfl
        cases afterSpace with
        | true =>
            obtain ⟨before, rfl⟩ := spaced rfl
            have two : Spacing (String.ofList [' ', c]) := ⟨by simp, by simp [gapped, blank]⟩
            have narrowed := respaced before text two single
            rw [scan_gap_true _ _ gapped]
            refine trans (by simpa using narrowed) (induction inBrackets others spaced)
        | false =>
            rw [scan_gap_false _ _ gapped, List.map_cons, unmark_gap]
            refine (respaced front text one single).trans ?_
            have later := @induction (front ++ [' ']) true inBrackets others fun _ => ⟨front, rfl⟩
            simpa using later
      · rw [scan_other _ _ _ open' close' other, List.map_cons, unmark_of_ne own,
          List.append_cons front c text,
          List.append_cons front c ((scan false inBrackets text).map unmark)]
        exact induction inBrackets others nofun

end Laid

theorem laid_flatten {source : List Char} (closed : commentAfter false source = false)
    (unmarked : spaceMark ∉ source) : Laid source ((flatten source).map unmark) := by
  have stripped : spaceMark ∉ stripComments false source := fun among =>
    unmarked (mem_stripComments among).1
  rw [flatten_eq_scan]
  exact (@Laid.uncommented [] source rfl closed).trans (@Laid.scanned [] _ false false stripped nofun)

/-- Nothing but the layout is lost in the flat form: scripts that close their comments and have no mark in
them differ in layout only if they have the same flat form. -/
theorem relaid_of_canonical_eq {source other : String}
    (closed : commentAfter false source.toList = false)
    (closed' : commentAfter false other.toList = false) (unmarked : spaceMark ∉ source.toList)
    (unmarked' : spaceMark ∉ other.toList) (same : canonical source = canonical other) :
    Relation.EqvGen Relaid source other := by
  have flat : flatten source.toList = flatten other.toList := String.ofList_inj.1 same
  have first := laid_flatten closed unmarked
  rw [flat] at first
  have laid := first.trans (laid_flatten closed' unmarked').symm
  rwa [Laid, String.ofList_toList, String.ofList_toList] at laid

end PaperFolding.Script
