import Mathlib.Data.List.Basic
import PaperFolding.Json.Printer
import PaperFolding.Json.Reader

/-!
Numbers and texts in front of what follows them: they are read as they were written.
-/

namespace PaperFolding

/-! ## Digits -/

namespace Text

theorem isDigit_eq (c : Char) : isDigit c = c.isDigit := by
  rw [Bool.eq_iff_iff, Char.isDigit_iff_toNat]
  unfold isDigit digit?
  split
  · rename_i within
    exact iff_of_true rfl within
  · rename_i outside
    exact iff_of_false (by simp) outside

theorem getD_digit? {c : Char} (digit : isDigit c = true) :
    (digit? c).getD 0 = c.toNat - '0'.toNat := by
  unfold isDigit at digit
  unfold digit? at digit ⊢
  split
  · rfl
  · rename_i other
    simp [other] at digit

theorem isDigit_toDigits {n : Nat} : ∀ c ∈ Nat.toDigits 10 n, isDigit c = true := by
  intro c among
  rw [isDigit_eq]
  exact Nat.isDigit_of_mem_toDigits (by decide) (by decide) among

theorem digitsValue_toDigits (n : Nat) : digitsValue (Nat.toDigits 10 n) = n := by
  have same : digitsValue (Nat.toDigits 10 n) = Nat.ofDigitChars 10 (Nat.toDigits 10 n) 0 :=
    List.foldl_ext _ _ _ fun value c among => by rw [getD_digit? (isDigit_toDigits c among)]
  rw [same, Nat.ofDigitChars_ten_toDigits]

/-- Digits are not padded with zeros. -/
theorem head_toDigits {n : Nat} (positive : 0 < n) : (Nat.toDigits 10 n).head? ≠ some '0' := by
  induction n using Nat.strongRecOn with
  | ind n induction =>
      rw [Nat.toDigits_eq_if (by decide : 1 < 10)]
      split
      · rename_i small
        have digit : ∀ n < 10, 0 < n → Nat.digitChar n ≠ '0' := by decide
        simpa using digit n small positive
      · rename_i large
        rw [List.head?_append_of_ne_nil _ Nat.toDigits_ne_nil]
        exact induction (n / 10) (by omega) (by omega)

end Text

namespace Json

/-! ## Numbers -/

/-- The text does not go on with digits or with the point in front of them. -/
def Undigited (rest : List Char) : Prop :=
  ∀ c ∈ rest.head?, Text.isDigit c = false ∧ c ≠ '.'

/-- The text does not go on with more of a number. -/
def Closes (rest : List Char) : Prop :=
  Undigited rest ∧ ∀ c ∈ rest.head?, c ≠ 'e' ∧ c ≠ 'E'

/-- At least one digit, and nothing else. -/
def Digits (digits : List Char) : Prop :=
  digits ≠ [] ∧ ∀ c ∈ digits, Text.isDigit c = true

theorem digits_toDigits {n : Nat} : Digits (Nat.toDigits 10 n) :=
  ⟨Nat.toDigits_ne_nil, Text.isDigit_toDigits⟩

theorem span_digits {digits rest : List Char} (every : ∀ c ∈ digits, Text.isDigit c = true)
    (ends : ∀ c ∈ rest.head?, Text.isDigit c = false) :
    (digits ++ rest).takeWhile Text.isDigit = digits ∧
      (digits ++ rest).dropWhile Text.isDigit = rest := by
  rw [List.takeWhile_append_of_pos every, List.dropWhile_append_of_pos every]
  cases rest with
  | nil => simp
  | cons c rest => simp [ends c rfl]

namespace Number

/-- The digits of the number are such as JSON allows. -/
structure Legal (n : Number) : Prop where
  whole : Digits n.whole
  unpadded : n.whole = ['0'] ∨ n.whole.head? ≠ some '0'
  fraction : ∀ digits ∈ n.fraction, Digits digits

theorem legal_toDigits {negative : Bool} {n : Nat} :
    Legal ⟨negative, Nat.toDigits 10 n, none, none⟩ where
  whole := digits_toDigits
  unpadded := by
    obtain rfl | positive := Nat.eq_zero_or_pos n
    · exact .inl (Nat.toDigits_zero 10)
    · exact .inr (Text.head_toDigits positive)
  fraction := nofun

def fractionChars : Option (List Char) → List Char
  | none => []
  | some digits => '.' :: digits

def exponentChars : Option Int → List Char
  | none => []
  | some e => 'e' :: (if e < 0 then '-' else '+') :: Nat.toDigits 10 e.natAbs

theorem chars_eq (n : Number) :
    n.chars = (if n.negative then ['-'] else []) ++ n.whole ++ fractionChars n.fraction ++
      exponentChars n.exponent := by
  obtain ⟨negative, whole, fraction, exponent⟩ := n
  cases fraction <;> cases exponent <;> rfl

end Number

open Number (fractionChars exponentChars)

variable {rest : List Char}

theorem undigited_exponent (closes : Closes rest) (exponent : Option Int) :
    Undigited (exponentChars exponent ++ rest) := by
  cases exponent with
  | none => exact closes.1
  | some e =>
      intro c first
      obtain rfl : c = 'e' := by simpa [exponentChars] using first.symm
      exact ⟨rfl, by decide⟩

theorem wholeDigits?_append {digits : List Char} (whole : Digits digits)
    (unpadded : digits = ['0'] ∨ digits.head? ≠ some '0')
    (ends : ∀ c ∈ rest.head?, Text.isDigit c = false) :
    wholeDigits? (digits ++ rest) = some (digits, rest) := by
  obtain ⟨taken, left⟩ := span_digits whole.2 ends
  rw [wholeDigits?, taken, left]
  obtain rfl | unpadded := unpadded
  · rfl
  · cases digits with
    | nil => exact absurd rfl whole.1
    | cons c digits =>
        have unpadded : c ≠ '0' := by simpa using unpadded
        split <;> simp_all

theorem fraction?_chars {fraction : Option (List Char)} (legal : ∀ digits ∈ fraction, Digits digits)
    (ends : Undigited rest) : fraction? (fractionChars fraction ++ rest) = some (fraction, rest) := by
  cases fraction with
  | none =>
      cases rest with
      | nil => rfl
      | cons c rest =>
          have other : c ≠ '.' := (ends c rfl).2
          rw [fractionChars, List.nil_append, fraction?]
          simp [other]
  | some digits =>
      obtain ⟨inhabited, every⟩ := legal digits rfl
      obtain ⟨taken, left⟩ := span_digits every fun c first => (ends c first).1
      rw [fractionChars, List.cons_append, fraction?, taken, left]
      cases digits with
      | nil => contradiction
      | cons c digits => rfl

theorem exponent?_chars (closes : Closes rest) (exponent : Option Int) :
    exponent? (exponentChars exponent ++ rest) = some (exponent, rest) := by
  cases exponent with
  | none =>
      cases rest with
      | nil => rfl
      | cons c rest =>
          obtain ⟨lower, upper⟩ := closes.2 c rfl
          unfold exponentChars exponent?
          exact if_neg (by simp [lower, upper])
  | some e =>
      obtain ⟨taken, left⟩ := span_digits (@Text.isDigit_toDigits e.natAbs)
        fun c first => (closes.1 c first).1
      have value := Text.digitsValue_toDigits e.natAbs
      have inhabited := (@digits_toDigits e.natAbs).1
      rw [exponentChars]
      generalize Nat.toDigits 10 e.natAbs = digits at taken left value inhabited ⊢
      obtain ⟨c, digits, rfl⟩ := List.exists_cons_of_ne_nil inhabited
      by_cases below : e < 0
      · simp only [below, List.cons_append, exponent?, true_or, if_true] at taken left ⊢
        simp only [taken, left, value]
        congr
        omega
      · simp only [below, List.cons_append, exponent?, true_or, if_true, if_false] at taken left ⊢
        simp only [taken, left, value, Bool.false_eq_true, if_false]
        congr
        omega

/-- A number is read part by part, whatever stands for its exponent. -/
theorem number?_of_parts {negative : Bool} {whole : List Char} {fraction : Option (List Char)}
    (legal : Number.Legal ⟨negative, whole, fraction, none⟩) {tail : List Char} {exponent : Option Int}
    (ends : Undigited tail) (reads : exponent? tail = some (exponent, rest)) :
    number? ((if negative then ['-'] else []) ++ (whole ++ (fractionChars fraction ++ tail))) =
      some (⟨negative, whole, fraction, exponent⟩, rest) := by
  obtain ⟨digits, unpadded, places⟩ := legal
  have apart : ∀ c ∈ (fractionChars fraction ++ tail).head?, Text.isDigit c = false := by
    cases fraction with
    | none => exact fun c first => (ends c first).1
    | some digits =>
        intro c first
        obtain rfl : c = '.' := by simpa [fractionChars] using first.symm
        rfl
  have front := wholeDigits?_append digits unpadded apart
  cases negative with
  | true =>
      simp only [if_true, List.cons_append, List.nil_append, number?, front,
        fraction?_chars places ends, reads, bind, Option.bind]
  | false =>
      have unsigned : ∀ body, whole ++ (fractionChars fraction ++ tail) = '-' :: body → False := by
        intro body same
        obtain ⟨c, places, rfl⟩ := List.exists_cons_of_ne_nil digits.1
        obtain ⟨rfl, -⟩ := List.cons.inj same
        exact absurd (digits.2 '-' (List.mem_cons_self ..)) (by decide)
      rw [if_neg Bool.false_ne_true, List.nil_append, number?]
      · simp only [front, fraction?_chars places ends, reads, bind, Option.bind]
      · exact unsigned

theorem number?_chars {n : Number} (legal : n.Legal) (closes : Closes rest) :
    number? (n.chars ++ rest) = some (n, rest) := by
  obtain ⟨negative, whole, fraction, exponent⟩ := n
  rw [Number.chars_eq, List.append_assoc, List.append_assoc, List.append_assoc]
  exact number?_of_parts ⟨legal.whole, legal.unpadded, legal.fraction⟩
    (undigited_exponent closes exponent) (exponent?_chars closes exponent)

/-! ## Texts -/

theorem hexadecimal_control :
    ∀ n < 0x20, (Text.hexadecimal 4 n).toList =
      ['0', '0', Nat.digitChar (n / 16), Nat.digitChar (n % 16)] := by
  decide +kernel

theorem hexDigit?_digitChar : ∀ n < 16, hexDigit? (Nat.digitChar n) = some n := by
  decide

theorem decode?_unit {n : Nat} (control : n < 0x20) (pieces : List Piece) :
    decode? (.unit n :: pieces) = (decode? pieces).map (Char.ofNat n :: ·) := by
  have high : isHighHalf n = false := by
    simp only [isHighHalf, Bool.and_eq_false_iff, decide_eq_false_iff_not]
    omega
  have low : isLowHalf n = false := by
    simp only [isLowHalf, Bool.and_eq_false_iff, decide_eq_false_iff_not]
    omega
  cases pieces with
  | nil => simp [decode?, high, low]
  | cons piece pieces => cases piece <;> simp [decode?, high, low]

/-- The reader goes on to the rest with one more piece. -/
def Yields (written : List Char) (piece : Piece) : Prop :=
  ∀ rest, pieces? (written ++ rest) =
    (pieces? rest).map fun (pieces, rest) => (piece :: pieces, rest)

theorem yields_escaped {mark c : Char} (means : escaped? mark = some c) (other : mark ≠ 'u') :
    Yields ['\\', mark] (.plain c) := by
  intro rest
  rw [List.cons_append, List.cons_append, List.nil_append, pieces?]
  · simp only [means, bind, Option.bind_some, Option.map_eq_bind]
    rfl
  · exact fun _ _ _ _ _ same => absurd same other

theorem yields_plain {c : Char} (quote : c ≠ '\"') (slash : c ≠ '\\') (visible : ¬ c.toNat < 0x20) :
    Yields [c] (.plain c) := by
  intro rest
  rw [List.singleton_append, pieces?]
  · simp only [visible, slash, or_self, if_false, bind, Option.map_eq_bind]
    rfl
  all_goals simp_all

theorem yields_control {n : Nat} (control : n < 0x20) :
    Yields ('\\' :: 'u' :: (Text.hexadecimal 4 n).toList) (.unit n) := by
  intro rest
  have high := hexDigit?_digitChar (n / 16) (by omega)
  have low := hexDigit?_digitChar (n % 16) (by omega)
  have value : ((0 * 16 + 0) * 16 + n / 16) * 16 + n % 16 = n := by omega
  rw [hexadecimal_control n control]
  simp only [List.cons_append, List.nil_append, pieces?, high, low, bind, Option.bind_some,
    Option.map_eq_bind, show hexDigit? '0' = some 0 from rfl, value]
  rfl

/-- Every character is written as one piece. -/
theorem exists_piece (c : Char) :
    ∃ piece, Yields (escape c) piece ∧
      ∀ pieces, decode? (piece :: pieces) = (decode? pieces).map (c :: ·) := by
  unfold escape
  split
  case h_8 quote slash _ _ _ _ _ =>
    split
    · rename_i control
      exact ⟨.unit c.toNat, yields_control control, fun pieces => by
        rw [decode?_unit control, Char.ofNat_toNat]⟩
    · rename_i visible
      exact ⟨.plain c, yields_plain quote slash visible, fun pieces => by rw [decode?]⟩
  all_goals
    exact ⟨.plain _, yields_escaped rfl (by decide), fun pieces => by rw [decode?]⟩

theorem quoted?_escape (text : String) (rest : List Char) :
    quoted? (text.toList.flatMap escape ++ '\"' :: rest) = some (some text, rest) := by
  have read (chars : List Char) : ∃ pieces,
      pieces? (chars.flatMap escape ++ '\"' :: rest) = some (pieces, rest) ∧
        decode? pieces = some chars := by
    induction chars with
    | nil => exact ⟨[], by simp [pieces?], rfl⟩
    | cons c chars induction =>
        obtain ⟨pieces, read, decoded⟩ := induction
        obtain ⟨piece, one, meaning⟩ := exists_piece c
        refine ⟨piece :: pieces, ?_, ?_⟩
        · rw [List.flatMap_cons, List.append_assoc, one, read]
          rfl
        · rw [meaning, decoded]
          rfl
  obtain ⟨pieces, read, decoded⟩ := read text.toList
  simp only [quoted?, read, Option.map_some, decoded, String.ofList_toList]

end Json

end PaperFolding
