import PaperFolding.Proofs.Json.Amount
import PaperFolding.Proofs.Json.Rereading

/-!
Coordinates and whole numbers as JSON values. A coordinate can be read back exactly if it is finite; the
others are written as no value.
-/

namespace PaperFolding

open Decimal (Magnitude Numeral)

/-! ## The magnitude of a coordinate -/

namespace Decimal

theorem ofBits_eq (bits : UInt64) :
    Magnitude.ofBits bits =
      if bits.toNat / 2 ^ 52 % 2 ^ 11 = 0 then ⟨bits.toNat % 2 ^ 52, -1074, false⟩
      else ⟨2 ^ 52 + bits.toNat % 2 ^ 52, (bits.toNat / 2 ^ 52 % 2 ^ 11 : ℕ) - 1075,
        bits.toNat % 2 ^ 52 = 0 ∧ 1 < bits.toNat / 2 ^ 52 % 2 ^ 11⟩ := by
  have exponent : ((bits >>> 52) &&& 0x7FF).toNat = bits.toNat / 2 ^ 52 % 2 ^ 11 := by
    rw [UInt64.toNat_and, UInt64.toNat_shiftRight, show (0x7FF : UInt64).toNat = 2 ^ 11 - 1 from rfl,
      Nat.and_two_pow_sub_one_eq_mod, Nat.shiftRight_eq_div_pow]
    rfl
  have significand : (bits &&& 0xFFFFFFFFFFFFF).toNat = bits.toNat % 2 ^ 52 := by
    rw [UInt64.toNat_and, show (0xFFFFFFFFFFFFF : UInt64).toNat = 2 ^ 52 - 1 from rfl,
      Nat.and_two_pow_sub_one_eq_mod]
  simp only [Magnitude.ofBits, exponent, significand]
  rfl

end Decimal

namespace Coordinate

/-- The magnitudes that rounding might carry beyond the greatest one. -/
def highest : List UInt64 := [0x7FEFFFFFFFFFFFFD, 0x7FEFFFFFFFFFFFFE, 0x7FEFFFFFFFFFFFFF]

theorem le_reach {m : ℕ} {e : ℤ} (short : m < 2 ^ 53) (low : e ≤ 971)
    (lower : e = 971 → m ≤ 2 ^ 53 - 4) : ((m : ℚ) + 1 / 2) * 2 ^ e ≤ Json.Number.reach := by
  unfold Json.Number.reach
  by_cases top : e = 971
  · subst top
    have lower : (m : ℚ) ≤ 9007199254740988 := by exact_mod_cast lower rfl
    gcongr
    norm_num
    linarith
  · have short : (m : ℚ) + 1 / 2 ≤ 2 ^ 53 := by
      have : ((m + 1 : ℕ) : ℚ) ≤ (2 ^ 53 : ℕ) := by exact_mod_cast short
      push_cast at this
      linarith
    calc ((m : ℚ) + 1 / 2) * 2 ^ e ≤ 2 ^ 53 * 2 ^ (970 : ℤ) := by
          gcongr
          · exact one_le_two
          · omega
      _ = 2 ^ 52 * 2 ^ (971 : ℤ) := by
          rw [show (971 : ℤ) = 970 + 1 by norm_num, zpow_add_one₀ two_ne_zero]
          ring
      _ ≤ (2 ^ 53 - 7 / 2) * 2 ^ (971 : ℤ) := by
          gcongr
          norm_num

theorem ofBits_bounds {bits : UInt64} (inhabited : bits ≠ 0) (finite : bits < 0x7FF0000000000000) :
    0 < (Magnitude.ofBits bits).significand ∧
      (bits ∈ highest ∨
        ((Magnitude.ofBits bits).significand + 1 / 2) * 2 ^ (Magnitude.ofBits bits).exponent ≤
          Json.Number.reach) := by
  have inhabited : bits.toNat ≠ 0 := fun none => inhabited (UInt64.toNat_inj.1 none)
  have finite : bits.toNat < 2047 * 2 ^ 52 := UInt64.lt_iff_toNat_lt.1 finite
  rw [Decimal.ofBits_eq]
  split
  · refine ⟨show 0 < bits.toNat % 2 ^ 52 by omega, .inr (le_reach ?_ ?_ ?_)⟩ <;> dsimp only <;> omega
  · refine ⟨show 0 < 2 ^ 52 + bits.toNat % 2 ^ 52 by omega, ?_⟩
    by_cases top : 0x7FEFFFFFFFFFFFFD ≤ bits.toNat
    · left
      have among : bits.toNat = (0x7FEFFFFFFFFFFFFD : UInt64).toNat ∨
          bits.toNat = (0x7FEFFFFFFFFFFFFE : UInt64).toNat ∨
            bits.toNat = (0x7FEFFFFFFFFFFFFF : UInt64).toNat := by
        show _ = 0x7FEFFFFFFFFFFFFD ∨ _ = 0x7FEFFFFFFFFFFFFE ∨ _ = 0x7FEFFFFFFFFFFFFF
        omega
      simpa only [highest, List.mem_cons, List.not_mem_nil, or_false, UInt64.toNat_inj] using among
    · refine .inr (le_reach ?_ ?_ ?_) <;> dsimp only <;> omega

end Coordinate

namespace Json.Number

/-- The number that a decimal is written as. -/
def ofNumeral (negative : Bool) (d : Numeral) : Number :=
  if -5 ≤ d.leading ∧ d.leading ≤ 15 then
    ⟨negative, d.whole, some (if d.fraction.isEmpty then ['0'] else d.fraction), none⟩
  else
    ⟨negative, (Nat.toDigits 10 d.digits).take 1,
      if (Nat.toDigits 10 d.digits).length = 1 then none
      else some ((Nat.toDigits 10 d.digits).drop 1), some d.leading⟩

theorem ofCoordinate?_eq (x : Coordinate) :
    ofCoordinate? x = if x.isFinite then some (ofNumeral x.isNegative (x.numeral .even)) else none := by
  unfold ofCoordinate? ofNumeral
  split
  · dsimp only
    split <;> rfl
  · rfl

theorem digits_append {front back : List Char} (digits : Digits front)
    (every : ∀ c ∈ back, Text.isDigit c = true) : Digits (front ++ back) :=
  ⟨List.append_ne_nil_of_left_ne_nil digits.1 _, fun c among =>
    (List.mem_append.1 among).elim (digits.2 c) (every c)⟩

theorem every_replicate (n : Nat) : ∀ c ∈ List.replicate n '0', Text.isDigit c = true := by
  intro c among
  rw [List.eq_of_mem_replicate among]
  rfl

theorem digits_zero : Digits ['0'] := ⟨nofun, List.forall_mem_singleton.2 rfl⟩

theorem digits_whole (d : Numeral) : Digits d.whole := by
  unfold Numeral.whole
  split
  · exact digits_append digits_toDigits (every_replicate _)
  · split
    · refine ⟨?_, fun c among => Text.isDigit_toDigits c (List.mem_of_mem_take among)⟩
      rw [ne_eq, List.take_eq_nil_iff, not_or]
      exact ⟨by omega, Nat.toDigits_ne_nil⟩
    · exact digits_zero

theorem every_fraction (d : Numeral) : ∀ c ∈ d.fraction, Text.isDigit c = true := by
  unfold Numeral.fraction
  split
  · exact nofun
  · split
    · exact fun c among => Text.isDigit_toDigits c (List.mem_of_mem_drop among)
    · intro c among
      exact (List.mem_append.1 among).elim (every_replicate _ c) (Text.isDigit_toDigits c)

theorem unpadded_whole {d : Numeral} (plain : d.digits = 0 → d.exponent = 0) :
    d.whole = ['0'] ∨ d.whole.head? ≠ some '0' := by
  obtain none | positive := Nat.eq_zero_or_pos d.digits
  · left
    simp [Numeral.whole, plain none, none]
  · have head := Text.head_toDigits positive
    unfold Numeral.whole
    split
    · right
      rwa [List.head?_append_of_ne_nil _ Nat.toDigits_ne_nil]
    · split
      · right
        rwa [List.head?_take, if_neg (by omega)]
      · exact .inl rfl

theorem legal_ofNumeral (negative : Bool) {d : Numeral} (plain : d.digits = 0 → d.exponent = 0) :
    (ofNumeral negative d).Legal := by
  unfold ofNumeral
  split
  · refine ⟨digits_whole d, unpadded_whole plain, ?_⟩
    rintro digits ⟨⟩
    split
    · exact digits_zero
    · rename_i inhabited
      exact ⟨by simpa using inhabited, every_fraction d⟩
  · have every := @Text.isDigit_toDigits d.digits
    obtain ⟨c, digits, written⟩ :=
      List.exists_cons_of_ne_nil (Nat.toDigits_ne_nil (n := d.digits) (b := 10))
    simp only [written, List.forall_mem_cons] at every ⊢
    refine ⟨⟨by simp, by simpa using every.1⟩, ?_, ?_⟩
    · by_cases zero : c = '0'
      · exact .inl (by simp [zero])
      · exact .inr (by simpa using zero)
    · intro places among
      dsimp only at among
      split at among
      · cases among
      · rename_i more
        obtain rfl := Option.some.inj among
        exact ⟨by simpa using more, every.2⟩

theorem length_whole {d : Numeral} (most : d.leading ≤ 15) : d.whole.length ≤ 16 := by
  have digits := Nat.length_toDigits_pos (n := d.digits) (b := 10)
  unfold Numeral.leading at most
  unfold Numeral.whole Numeral.leading
  split
  · rw [List.length_append, List.length_replicate]
    omega
  · split
    · rw [List.length_take]
      omega
    · decide

theorem le_reach_small {q : ℚ} (small : q ≤ 10 ^ 16) : q ≤ reach := by
  have unit : (0 : ℚ) < 2 ^ 53 - 7 / 2 := by norm_num
  calc q ≤ 10 ^ 16 := small
    _ ≤ (2 ^ 53 - 7 / 2) * 2 ^ (10 : ℤ) := by norm_num
    _ ≤ (2 ^ 53 - 7 / 2) * 2 ^ (971 : ℤ) :=
      mul_le_mul_of_nonneg_left (zpow_le_zpow_right₀ one_le_two (by decide)) unit.le

/-- Digits after the point add less than one. -/
theorem amount_lt (n : Number) (plain : n.exponent = none) :
    n.amount < Text.digitsValue n.whole + 1 := by
  have short := Text.appended_lt (Text.digitsValue n.whole) (n.fraction.getD [])
  have short : ((Text.digitsValue (n.whole ++ n.fraction.getD []) : ℕ) : ℚ) <
      ((Text.digitsValue n.whole + 1) * 10 ^ (n.fraction.getD []).length : ℕ) := by
    rw [Text.digitsValue_append]
    exact_mod_cast short
  rw [amount, plain, Option.getD_none, zero_sub, zpow_neg, zpow_natCast, ← div_eq_mul_inv,
    div_lt_iff₀ (by positivity)]
  exact_mod_cast short

theorem real?_ofNumeral (negative : Bool) {d : Numeral} (bounded : d.worth ≤ reach) :
    (ofNumeral negative d).real?.isSome = true := by
  unfold ofNumeral
  split
  · rename_i range
    have front : Text.digitsValue d.whole < 10 ^ 16 :=
      (Text.digitsValue_lt d.whole).trans_le (Nat.pow_le_pow_right (by decide) (length_whole range.2))
    refine real?_isSome (front.le.trans (by decide)) (le_reach_small ((amount_lt _ rfl).le.trans ?_))
    exact_mod_cast front
  · obtain ⟨c, digits, written⟩ :=
      List.exists_cons_of_ne_nil (Nat.toDigits_ne_nil (n := d.digits) (b := 10))
    have value := Text.digitsValue_toDigits d.digits
    have leading : d.leading = d.exponent + digits.length := by
      rw [Numeral.leading, written, List.length_cons]
      push_cast
      ring
    refine real?_isSome ((Text.digitsValue_lt _).le.trans ?_) (le_of_eq_of_le ?_ bounded)
    · rw [written]
      exact (by decide : 10 ^ 1 ≤ digitLimit)
    · have places : (if (c :: digits).length = 1 then none
          else some ((c :: digits).drop 1)).getD [] = digits := by
        split
        · rename_i single
          simpa using single.symm
        · rfl
      rw [written] at value
      simp only [amount, written, places, leading, Option.getD_some, add_sub_cancel_right]
      rw [Numeral.worth, ← value]
      rfl

end Json.Number

namespace Coordinate

open Json (Number)

theorem numeral_spec {x : Coordinate} (finite : x.isFinite = true) :
    ((x.numeral .even).digits = 0 → (x.numeral .even).exponent = 0) ∧
      (Number.ofNumeral x.isNegative (x.numeral .even)).real?.isSome = true := by
  unfold numeral
  split
  · refine ⟨fun _ => rfl, Number.real?_ofNumeral _ (Number.le_reach_small ?_)⟩
    simp [Numeral.worth]
  · rename_i inhabited
    obtain ⟨positive, among | bounded⟩ := ofBits_bounds
      (fun none => inhabited (congrArg Coordinate.mk none)) (of_decide_eq_true finite)
    · have listed (negative : Bool) : (highest.all fun bits => (Number.ofNumeral negative
          ((Magnitude.ofBits bits).shortest .even)).real?.isSome) = true := by
        cases negative <;> decide +kernel
      have digits := (Decimal.shortest_spec positive .even).2
      exact ⟨fun none => absurd none digits.ne', List.all_eq_true.1 (listed _) _ among⟩
    · obtain ⟨above, digits⟩ := Decimal.shortest_spec positive .even
      exact ⟨fun none => absurd none digits.ne', Number.real?_ofNumeral _ (above.trans bounded)⟩

end Coordinate

namespace Json

theorem coordinate_eq (x : Coordinate) :
    coordinate x = if x.isFinite then .number (.ofNumeral x.isNegative (x.numeral .even))
      else .null := by
  rw [coordinate, Number.ofCoordinate?_eq]
  split <;> rfl

theorem printable_coordinate (x : Coordinate) : (coordinate x).Printable := by
  rw [coordinate_eq]
  split
  · rename_i finite
    exact Number.legal_ofNumeral _ (Coordinate.numeral_spec finite).1
  · trivial

end Json

/-- The coordinate that is read where this one was written; none if it is not finite. -/
def Coordinate.reread? (x : Coordinate) : Option Coordinate :=
  (Json.read? (Json.write (Json.coordinate x))).bind Json.coordinate?

theorem Coordinate.reread?_eq (x : Coordinate) : x.reread? = (Json.coordinate x).coordinate? := by
  rw [reread?, Json.read?_write (Json.printable_coordinate x), Option.bind_some]

theorem Coordinate.isSome_reread? (x : Coordinate) : x.reread?.isSome = x.isFinite := by
  rw [reread?_eq, Json.coordinate_eq]
  split
  · rename_i finite
    rw [finite]
    exact (numeral_spec finite).2
  · rename_i infinite
    rw [Bool.not_eq_true] at infinite
    rw [infinite]
    rfl

end PaperFolding
