import PaperFolding.Script.Token

/-!
The passes that make a script flat, taken together: one scan that knows whether a space has just been
written and whether a bracket is open. Scanning what a scan has written changes nothing.
-/

namespace PaperFolding.Script

def isGap (c : Char) : Bool := c = ' ' || c = '\t' || c = '\n' || c = '\r'

def gap (inBrackets : Bool) : Char := if inBrackets then spaceMark else ' '

def scan (afterSpace inBrackets : Bool) : List Char → List Char
  | [] => []
  | c :: text =>
      if c = '[' then
        if afterSpace then '[' :: scan false true text
        else gap inBrackets :: '[' :: scan false true text
      else if c = ']' then ']' :: ' ' :: scan true false text
      else if isGap c then
        if afterSpace then scan true inBrackets text
        else gap inBrackets :: scan true inBrackets text
      else c :: scan false inBrackets text

def spaceAfter (afterSpace : Bool) : List Char → Bool
  | [] => afterSpace
  | c :: text => spaceAfter (c = ']' || isGap c) text

def openAfter (inBrackets : Bool) : List Char → Bool
  | [] => inBrackets
  | c :: text => openAfter (c = '[' || (c ≠ ']' && inBrackets)) text

theorem ne_bracket_of_isGap {c : Char} (gapped : isGap c = true) : c ≠ '[' ∧ c ≠ ']' := by
  constructor
  · rintro rfl
    cases gapped
  · rintro rfl
    cases gapped

section Equations

variable (afterSpace inBrackets : Bool) (text : List Char)

@[simp] theorem scan_nil : scan afterSpace inBrackets [] = [] := rfl

@[simp] theorem scan_bracket_true :
    scan true inBrackets ('[' :: text) = '[' :: scan false true text := rfl

@[simp] theorem scan_bracket_false :
    scan false inBrackets ('[' :: text) = gap inBrackets :: '[' :: scan false true text := rfl

@[simp] theorem scan_closing :
    scan afterSpace inBrackets (']' :: text) = ']' :: ' ' :: scan true false text := rfl

@[simp] theorem scan_gap_true {c : Char} (gapped : isGap c) :
    scan true inBrackets (c :: text) = scan true inBrackets text := by
  obtain ⟨opening, closing⟩ := ne_bracket_of_isGap gapped
  simp [scan, opening, closing, gapped]

@[simp] theorem scan_gap_false {c : Char} (gapped : isGap c) :
    scan false inBrackets (c :: text) = gap inBrackets :: scan true inBrackets text := by
  obtain ⟨opening, closing⟩ := ne_bracket_of_isGap gapped
  simp [scan, opening, closing, gapped]

theorem scan_other {c : Char} (opening : c ≠ '[') (closing : c ≠ ']') (other : isGap c = false) :
    scan afterSpace inBrackets (c :: text) = c :: scan false inBrackets text := by
  simp [scan, opening, closing, other]

end Equations

theorem char_cases (c : Char) :
    c = '[' ∨ c = ']' ∨ (c ≠ '[' ∧ c ≠ ']' ∧ isGap c = true) ∨
      (c ≠ '[' ∧ c ≠ ']' ∧ isGap c = false) := by
  by_cases opening : c = '['
  · exact .inl opening
  · by_cases closing : c = ']'
    · exact .inr (.inl closing)
    · cases other : isGap c with
      | true => exact .inr (.inr (.inl ⟨opening, closing, rfl⟩))
      | false => exact .inr (.inr (.inr ⟨opening, closing, rfl⟩))

theorem scan_of_visible {text : List Char}
    (visible : ∀ c ∈ text, c ≠ '[' ∧ c ≠ ']' ∧ isGap c = false) (afterSpace inBrackets : Bool) :
    scan afterSpace inBrackets text = text := by
  induction text generalizing afterSpace with
  | nil => rfl
  | cons c text induction =>
      obtain ⟨⟨opening, closing, other⟩, others⟩ := List.forall_mem_cons.1 visible
      rw [scan_other _ _ _ opening closing other, induction others]

theorem isGap_iff (c : Char) : isGap c = true ↔ c = ' ' ∨ c = '\t' ∨ c = '\n' ∨ c = '\r' := by
  simp [isGap, or_assoc]

theorem markSpaces_collapse_pad (afterSpace inBrackets : Bool) (text : List Char) :
    markSpaces inBrackets (collapse afterSpace (pad text)) = scan afterSpace inBrackets text := by
  induction text generalizing afterSpace inBrackets with
  | nil => rfl
  | cons c text induction =>
      have front : pad (c :: text) = (if c = '[' then [' ', '['] else if c = ']' then [']', ' ']
          else if c = '\t' ∨ c = '\n' ∨ c = '\r' then [' '] else [c]) ++ pad text := rfl
      rw [front]
      rcases char_cases c with rfl | rfl | ⟨opening, closing, gapped⟩ | ⟨opening, closing, other⟩
      · cases afterSpace <;> cases inBrackets <;>
          simp [collapse, markSpaces, induction, gap]
      · cases afterSpace <;> simp [collapse, markSpaces, induction]
      · rcases (isGap_iff c).1 gapped with rfl | rfl | rfl | rfl <;>
          cases afterSpace <;> cases inBrackets <;>
            simp [collapse, markSpaces, induction, gap, gapped]
      · have space : c ≠ ' ' := by rintro rfl; cases other
        have tab : ¬ (c = '\t' ∨ c = '\n' ∨ c = '\r') := by
          rintro (rfl | rfl | rfl) <;> cases other
        simp [collapse, markSpaces, induction, opening, closing, tab, space,
          scan_other _ _ _ opening closing other]

theorem flatten_eq_scan (source : List Char) :
    flatten source = scan false false (stripComments false source) :=
  markSpaces_collapse_pad false false _

theorem scan_append (afterSpace inBrackets : Bool) (front back : List Char) :
    scan afterSpace inBrackets (front ++ back) =
      scan afterSpace inBrackets front ++
        scan (spaceAfter afterSpace front) (openAfter inBrackets front) back := by
  induction front generalizing afterSpace inBrackets with
  | nil => rfl
  | cons c front induction =>
      rw [List.cons_append]
      rcases char_cases c with rfl | rfl | ⟨opening, closing, gapped⟩ | ⟨opening, closing, other⟩
      · cases afterSpace <;> simp [induction, spaceAfter, openAfter, isGap]
      · simp [induction, spaceAfter, openAfter]
      · cases afterSpace <;>
          simp [induction, spaceAfter, openAfter, gapped, opening, closing]
      · rw [scan_other _ _ _ opening closing other, scan_other _ _ _ opening closing other]
        simp [induction, spaceAfter, openAfter, opening, closing, other]

@[simp] theorem unmark_gap (inBrackets : Bool) : unmark (gap inBrackets) = ' ' := by
  cases inBrackets <;> rfl

@[simp] theorem openAfter_gap (inBrackets : Bool) (text : List Char) :
    openAfter inBrackets (gap inBrackets :: text) = openAfter inBrackets text := by
  cases inBrackets <;> rfl

theorem unmark_of_ne {c : Char} (other : c ≠ spaceMark) : unmark c = c := if_neg other

theorem scan_unmark_scan (afterSpace inBrackets : Bool) (text : List Char)
    (unmarked : spaceMark ∉ text) :
    scan afterSpace inBrackets ((scan afterSpace inBrackets text).map unmark) =
      scan afterSpace inBrackets text := by
  induction text generalizing afterSpace inBrackets with
  | nil => rfl
  | cons c text induction =>
      have own : c ≠ spaceMark := (List.ne_of_not_mem_cons unmarked).symm
      have others : spaceMark ∉ text := List.not_mem_of_not_mem_cons unmarked
      have opened : unmark '[' = '[' := rfl
      have closed : unmark ']' = ']' := rfl
      have space : unmark ' ' = ' ' := rfl
      have blank : isGap ' ' = true := rfl
      rcases char_cases c with rfl | rfl | ⟨opening, closing, gapped⟩ | ⟨opening, closing, other⟩
      · cases afterSpace <;> simp [opened, induction, others, blank]
      · simp [closed, space, induction, others, blank]
      · cases afterSpace <;> simp [gapped, induction, others, blank]
      · rw [scan_other _ _ _ opening closing other, List.map_cons, unmark_of_ne own,
          scan_other _ _ _ opening closing other, induction _ _ others]

theorem openAfter_cons_of_ne {c : Char} (opening : c ≠ '[') (closing : c ≠ ']')
    (inBrackets : Bool) (text : List Char) :
    openAfter inBrackets (c :: text) = openAfter inBrackets text := by
  simp [openAfter, opening, closing]

theorem openAfter_of_ne {text : List Char} (unbracketed : ∀ c ∈ text, c ≠ '[' ∧ c ≠ ']')
    (inBrackets : Bool) : openAfter inBrackets text = inBrackets := by
  induction text with
  | nil => rfl
  | cons c text induction =>
      obtain ⟨⟨opening, closing⟩, others⟩ := List.forall_mem_cons.1 unbracketed
      rw [openAfter_cons_of_ne opening closing, induction others]

theorem openAfter_unmark (inBrackets : Bool) (text : List Char) :
    openAfter inBrackets (text.map unmark) = openAfter inBrackets text := by
  induction text generalizing inBrackets with
  | nil => rfl
  | cons c text induction =>
      rw [List.map_cons, openAfter, openAfter, induction]
      by_cases own : c = spaceMark
      · rw [own]
        rfl
      · rw [unmark_of_ne own]

theorem openAfter_scan (afterSpace inBrackets : Bool) (text : List Char) :
    openAfter inBrackets (scan afterSpace inBrackets text) = openAfter inBrackets text := by
  induction text generalizing afterSpace inBrackets with
  | nil => rfl
  | cons c text induction =>
      rcases char_cases c with rfl | rfl | ⟨opening, closing, gapped⟩ | ⟨opening, closing, other⟩
      · cases afterSpace <;> simp [openAfter, induction]
      · simp [openAfter, induction]
      · rw [openAfter_cons_of_ne opening closing]
        cases afterSpace <;> simp [gapped, induction]
      · rw [scan_other _ _ _ opening closing other, openAfter_cons_of_ne opening closing,
          openAfter_cons_of_ne opening closing, induction]

theorem closing_of_cons {c : Char} {text front back : List Char} (other : c ≠ ']')
    (written : c :: text = front ++ ']' :: back) : ∃ rest, text = rest ++ ']' :: back := by
  cases front with
  | nil => exact absurd (List.cons.inj written).1 other
  | cons _ rest => exact ⟨rest, (List.cons.inj written).2⟩

theorem scan_closing_followed {afterSpace inBrackets : Bool} {text front back : List Char}
    (written : scan afterSpace inBrackets text = front ++ ']' :: back) :
    ∃ others, back = ' ' :: others := by
  induction text generalizing afterSpace inBrackets front with
  | nil => simp at written
  | cons c text induction =>
      have space : gap inBrackets ≠ ']' := by cases inBrackets <;> decide
      rcases char_cases c with rfl | rfl | ⟨opening, closing, gapped⟩ | ⟨opening, closing, other⟩
      · cases afterSpace with
        | true =>
            obtain ⟨rest, written⟩ := closing_of_cons (by decide) written
            exact induction written
        | false =>
            obtain ⟨rest, written⟩ := closing_of_cons space written
            obtain ⟨rest, written⟩ := closing_of_cons (by decide) written
            exact induction written
      · rw [scan_closing] at written
        cases front with
        | nil => exact ⟨_, (List.cons.inj written).2.symm⟩
        | cons _ front =>
            obtain ⟨rest, written⟩ := closing_of_cons (by decide) (List.cons.inj written).2
            exact induction written
      · cases afterSpace with
        | true =>
            rw [scan_gap_true _ _ gapped] at written
            exact induction written
        | false =>
            rw [scan_gap_false _ _ gapped] at written
            obtain ⟨rest, written⟩ := closing_of_cons space written
            exact induction written
      · rw [scan_other _ _ _ opening closing other] at written
        obtain ⟨rest, written⟩ := closing_of_cons closing written
        exact induction written

theorem space_of_cons {c : Char} {text front back : List Char} (other : c ≠ ' ')
    (written : c :: text = front ++ ' ' :: back) :
    ∃ rest, front = c :: rest ∧ text = rest ++ ' ' :: back := by
  cases front with
  | nil => exact absurd (List.cons.inj written).1 other
  | cons first rest =>
      obtain ⟨same, found⟩ := List.cons.inj written
      exact ⟨rest, by rw [same], found⟩

theorem space_of_space {text front back : List Char} (spaceless : ' ' ∉ front)
    (written : ' ' :: text = front ++ ' ' :: back) : front = [] ∧ back = text := by
  cases front with
  | nil => exact ⟨rfl, (List.cons.inj written).2.symm⟩
  | cons first rest =>
      obtain ⟨same, found⟩ := List.cons.inj written
      rw [← same] at spaceless
      exact absurd (List.mem_cons_self ..) spaceless

/-- The text falls apart at a space: what is before it is written without what is after it, and the rest
is scanned from there. -/
def Splits (afterSpace inBrackets : Bool) (text front back : List Char) : Prop :=
  ∃ read rest, text = read ++ rest ∧
    (scan afterSpace inBrackets read = front ∨ scan afterSpace inBrackets read = front ++ [' ']) ∧
    openAfter inBrackets read = false ∧ back = scan true false rest

theorem Splits.cons {afterSpace inBrackets space inside : Bool} {c : Char}
    {text front tail back : List Char} (splits : Splits space inside text tail back)
    (behind : spaceAfter afterSpace [c] = space) (opened : openAfter inBrackets [c] = inside)
    (written : front = scan afterSpace inBrackets [c] ++ tail) :
    Splits afterSpace inBrackets (c :: text) front back := by
  obtain ⟨read, rest, rfl, reads, shut, rfl⟩ := splits
  subst behind opened written
  refine ⟨c :: read, rest, rfl, ?_, shut, rfl⟩
  rw [← List.singleton_append, scan_append]
  rcases reads with reads | reads
  · exact .inl (by rw [reads])
  · exact .inr (by rw [reads, List.append_assoc])

theorem scan_split {afterSpace inBrackets : Bool} {text front back : List Char}
    (spaceless : ' ' ∉ front) (written : scan afterSpace inBrackets text = front ++ ' ' :: back) :
    Splits afterSpace inBrackets text front back := by
  induction text generalizing afterSpace inBrackets front with
  | nil => simp at written
  | cons c text induction =>
      rcases char_cases c with rfl | rfl | ⟨opening, closing, gapped⟩ | ⟨opening, closing, other⟩
      · cases afterSpace with
        | true =>
            obtain ⟨tail, rfl, found⟩ := space_of_cons (by decide) written
            have later := induction (List.not_mem_of_not_mem_cons spaceless) found
            exact later.cons rfl rfl rfl
        | false =>
            rw [scan_bracket_false] at written
            -- Inside of brackets the gap is written as a mark, which is not the space looked for.
            cases inBrackets with
            | false =>
                obtain ⟨rfl, rfl⟩ := space_of_space spaceless written
                exact ⟨[], '[' :: text, rfl, .inl rfl, rfl, rfl⟩
            | true =>
                obtain ⟨marked, rfl, found⟩ := space_of_cons (by decide) written
                obtain ⟨tail, rfl, follows⟩ := space_of_cons (by decide) found
                have later := induction
                  (List.not_mem_of_not_mem_cons (List.not_mem_of_not_mem_cons spaceless)) follows
                exact later.cons rfl rfl rfl
      · obtain ⟨tail, rfl, found⟩ := space_of_cons (by decide) written
        obtain ⟨rfl, rfl⟩ := space_of_space (List.not_mem_of_not_mem_cons spaceless) found
        exact ⟨[']'], text, rfl, .inr rfl, rfl, rfl⟩
      · have behind : spaceAfter afterSpace [c] = true := by simp [spaceAfter, gapped]
        have opened := openAfter_cons_of_ne opening closing inBrackets []
        cases afterSpace with
        | true =>
            rw [scan_gap_true _ _ gapped] at written
            exact (induction spaceless written).cons behind opened (by simp [gapped])
        | false =>
            rw [scan_gap_false _ _ gapped] at written
            cases inBrackets with
            | false =>
                obtain ⟨rfl, rfl⟩ := space_of_space spaceless written
                exact ⟨[c], text, rfl, .inr (by simp [gapped, gap]), opened, rfl⟩
            | true =>
                obtain ⟨tail, rfl, found⟩ := space_of_cons (by decide) written
                have later := induction (List.not_mem_of_not_mem_cons spaceless) found
                exact later.cons behind opened (by simp [gapped])
      · have visible : c ≠ ' ' := by
          rintro rfl
          cases other
        have behind : spaceAfter afterSpace [c] = false := by simp [spaceAfter, closing, other]
        have opened := openAfter_cons_of_ne opening closing inBrackets []
        rw [scan_other _ _ _ opening closing other] at written
        obtain ⟨tail, rfl, found⟩ := space_of_cons visible written
        have later := induction (List.not_mem_of_not_mem_cons spaceless) found
        exact later.cons behind opened (by simp [scan_other _ _ _ opening closing other])

theorem mem_scan_singleton {afterSpace inBrackets : Bool} {first c : Char}
    (written : c ∈ scan afterSpace inBrackets [first]) :
    c = first ∧ isGap c = false ∨ c = ' ' ∨ c = spaceMark ∧ inBrackets = true := by
  have spaced : c = gap inBrackets → c = ' ' ∨ c = spaceMark ∧ inBrackets = true := by
    cases inBrackets
    · exact .inl
    · exact fun mark => .inr ⟨mark, rfl⟩
  rcases char_cases first with rfl | rfl | ⟨opening, closing, gapped⟩ | ⟨opening, closing, other⟩
  · cases afterSpace with
    | true =>
        obtain rfl := List.mem_singleton.1 written
        exact .inl ⟨rfl, rfl⟩
    | false =>
        rcases List.mem_cons.1 written with space | bracket
        · exact .inr (spaced space)
        · obtain rfl := List.mem_singleton.1 bracket
          exact .inl ⟨rfl, rfl⟩
  · rcases List.mem_cons.1 written with rfl | space
    · exact .inl ⟨rfl, rfl⟩
    · exact .inr (.inl (List.mem_singleton.1 space))
  · cases afterSpace with
    | true => simp [gapped] at written
    | false =>
        rw [scan_gap_false _ _ gapped] at written
        exact .inr (spaced (List.mem_singleton.1 written))
  · rw [scan_other _ _ _ opening closing other] at written
    obtain rfl := List.mem_singleton.1 written
    exact .inl ⟨rfl, other⟩

theorem mem_scan {afterSpace inBrackets : Bool} {text : List Char} {c : Char}
    (written : c ∈ scan afterSpace inBrackets text) :
    c ∈ text ∧ isGap c = false ∨ c = ' ' ∨
      c = spaceMark ∧ (inBrackets = true ∨ '[' ∈ text) := by
  induction text generalizing afterSpace inBrackets with
  | nil => simp at written
  | cons first text induction =>
      rw [← List.singleton_append, scan_append] at written
      rcases List.mem_append.1 written with here | later
      · rcases mem_scan_singleton here with ⟨rfl, visible⟩ | space | ⟨mark, inside⟩
        · exact .inl ⟨List.mem_cons_self .., visible⟩
        · exact .inr (.inl space)
        · exact .inr (.inr ⟨mark, .inl inside⟩)
      · rcases induction later with ⟨among, visible⟩ | space | ⟨mark, inside | opened⟩
        · exact .inl ⟨List.mem_cons_of_mem first among, visible⟩
        · exact .inr (.inl space)
        · by_cases opening : first = '['
          · exact .inr (.inr ⟨mark, .inr (by simp [opening])⟩)
          · refine .inr (.inr ⟨mark, .inl ?_⟩)
            simp only [openAfter, opening, decide_false, Bool.false_or, Bool.and_eq_true] at inside
            exact inside.2
        · exact .inr (.inr ⟨mark, .inr (List.mem_cons_of_mem first opened)⟩)

end PaperFolding.Script
