import PaperFolding.Proofs.Coordinate.Growth
import PaperFolding.Proofs.Decimal.Shortest
import PaperFolding.Proofs.Json.Atom

/-!
How large the numbers in a text are. Every finite coordinate is written as a number that can be read.
-/

namespace PaperFolding

open Decimal (Magnitude Numeral)

/-! ## The value of digits -/

namespace Text

/-- The whole number that digits make after the ones that make `value`. -/
def appended (value : Nat) (digits : List Char) : Nat :=
  digits.foldl (fun value c => 10 * value + (digit? c).getD 0) value

theorem digitsValue_append (front back : List Char) :
    digitsValue (front ++ back) = appended (digitsValue front) back :=
  List.foldl_append

theorem le_appended (value : Nat) (digits : List Char) :
    value * 10 ^ digits.length ≤ appended value digits := by
  induction digits generalizing value with
  | nil => simp [appended]
  | cons c digits induction =>
      have grown := induction (10 * value + (digit? c).getD 0)
      rw [List.length_cons, pow_succ]
      calc value * (10 ^ digits.length * 10) = 10 * value * 10 ^ digits.length := by ring
        _ ≤ (10 * value + (digit? c).getD 0) * 10 ^ digits.length :=
            Nat.mul_le_mul_right _ (by omega)
        _ ≤ appended value (c :: digits) := grown

theorem getD_digit?_le (c : Char) : (digit? c).getD 0 ≤ 9 := by
  unfold digit?
  split
  · rename_i within
    have high : c.toNat ≤ '9'.toNat := within.2
    simp only [Option.getD_some]
    have : '9'.toNat = 57 := rfl
    have : '0'.toNat = 48 := rfl
    omega
  · decide

theorem appended_lt (value : Nat) (digits : List Char) :
    appended value digits < (value + 1) * 10 ^ digits.length := by
  induction digits generalizing value with
  | nil => simp [appended]
  | cons c digits induction =>
      have small := getD_digit?_le c
      calc appended value (c :: digits)
          < (10 * value + (digit? c).getD 0 + 1) * 10 ^ digits.length := induction _
        _ ≤ (10 * value + 10) * 10 ^ digits.length := Nat.mul_le_mul_right _ (by omega)
        _ = (value + 1) * 10 ^ (c :: digits).length := by
          rw [List.length_cons, pow_succ]
          ring

theorem digitsValue_lt (digits : List Char) : digitsValue digits < 10 ^ digits.length := by
  have short := appended_lt 0 digits
  rwa [zero_add, one_mul] at short

end Text

namespace Json.Number

open Text

theorem absorb_le (value : Nat) (digits : List Char) :
    (absorb value digits).1 * 10 ^ (absorb value digits).2.length ≤ appended value digits := by
  induction digits generalizing value with
  | nil => simp [absorb, appended]
  | cons c digits induction =>
      unfold absorb
      dsimp only
      split
      · exact induction _
      · exact le_appended value (c :: digits)

theorem absorb_all {value : Nat} {digits : List Char}
    (fits : appended value digits ≤ digitLimit) :
    absorb value digits = (appended value digits, []) := by
  induction digits generalizing value with
  | nil => rfl
  | cons c digits induction =>
      have grown := le_appended (10 * value + (digit? c).getD 0) digits
      have below : 10 * value + (digit? c).getD 0 ≤ digitLimit :=
        (Nat.le_mul_of_pos_right _ (by positivity)).trans (grown.trans fits)
      rw [absorb, if_pos below]
      exact induction fits

theorem length_absorb_le (value : Nat) (digits : List Char) :
    (absorb value digits).2.length ≤ digits.length := by
  induction digits generalizing value with
  | nil => rfl
  | cons c digits induction =>
      unfold absorb
      dsimp only
      split
      · exact (induction _).trans (Nat.le_succ _)
      · rfl

/-! ## Scaling -/

/-- The number that the digits and the exponent make, whatever its sign. -/
def amount (n : Number) : ℚ :=
  (digitsValue (n.whole ++ n.fraction.getD []) : ℕ) *
    10 ^ (n.exponent.getD 0 - (n.fraction.getD []).length : ℤ)

/-- Numbers up to this one are scaled without becoming infinite. -/
def reach : ℚ := (2 ^ 53 - 7 / 2) * 2 ^ (971 : ℤ)

theorem reach_growth : reach * growth * growth * growth < 2 ^ 1024 := by
  have room : (2 ^ 53 - 7 / 2) * growth * growth * growth < (2 : ℚ) ^ 53 := by norm_num [growth]
  calc reach * growth * growth * growth
      = (2 ^ 53 - 7 / 2) * growth * growth * growth * 2 ^ (971 : ℤ) := by
        unfold reach
        ring
    _ < 2 ^ 53 * 2 ^ (971 : ℤ) := by gcongr
    _ = 2 ^ 1024 := by rw [zpow_ofNat, ← pow_add]

theorem one_le_growth : 1 ≤ growth := by norm_num [growth]

theorem reach_lt : reach < (10 ^ 309 : ℕ) := by
  have grows := one_le_growth
  have positive : 0 ≤ reach := by
    unfold reach
    have : (0 : ℚ) ≤ 2 ^ 53 - 7 / 2 := by norm_num
    positivity
  have binary : (2 : ℚ) ^ 1024 < (10 ^ 309 : ℕ) := by
    exact_mod_cast (by decide +kernel : 2 ^ 1024 < 10 ^ 309)
  calc reach ≤ reach * growth := le_mul_of_one_le_right positive grows
    _ ≤ reach * growth * growth := le_mul_of_one_le_right (by positivity) grows
    _ ≤ reach * growth * growth * growth := le_mul_of_one_le_right (by positivity) grows
    _ < 2 ^ 1024 := reach_growth
    _ < (10 ^ 309 : ℕ) := binary

theorem scale?_zero (e : ℕ) : (scale? (Coordinate.ofNat 0) e).isSome = true := by
  have zero : (Coordinate.ofNat 0).Stands 0 := Coordinate.Stands.ofNat (by decide)
  unfold scale?
  rw [if_pos e.cast_nonneg]
  split
  · rename_i small
    have power := Coordinate.isFinite_of_within (Coordinate.within_nearest_one (e := e) (by omega))
    dsimp only
    rw [if_pos (Coordinate.isFinite_zero_mul zero power)]
    rfl
  · rw [if_pos ((zero.same .zero).2 rfl)]
    rfl

theorem scale?_isSome {s : ℕ} {e : ℤ} (bounded : (s : ℚ) * 10 ^ e ≤ reach) :
    (scale? (Coordinate.ofNat s) e).isSome = true := by
  by_cases whole : 0 ≤ e
  case neg =>
    unfold scale?
    rw [if_neg whole]
    rfl
  obtain ⟨e, rfl⟩ := Int.eq_ofNat_of_zero_le whole
  obtain rfl | positive := Nat.eq_zero_or_pos s
  · exact scale?_zero e
  · have digits : (1 : ℚ) ≤ s := by exact_mod_cast positive
    have power : (1 : ℚ) ≤ (10 ^ e : ℕ) := by exact_mod_cast Nat.one_le_pow e 10 (by decide)
    have product : (s : ℚ) * (10 ^ e : ℕ) ≤ reach := by simpa using bounded
    have grows := one_le_growth
    have small : e ≤ 308 := by
      by_contra large
      have high : ((10 ^ 309 : ℕ) : ℚ) ≤ (10 ^ e : ℕ) := by
        exact_mod_cast Nat.pow_le_pow_right (by decide) (by omega)
      have := le_mul_of_one_le_left (zero_le_one.trans power) digits
      linarith [reach_lt]
    have room : s * growth * ((10 ^ e : ℕ) * growth) * growth < 2 ^ 1024 := by
      calc s * growth * ((10 ^ e : ℕ) * growth) * growth
          = s * (10 ^ e : ℕ) * growth * growth * growth := by ring
        _ ≤ reach * growth * growth * growth := by gcongr
        _ < 2 ^ 1024 := reach_growth
    have first : s * growth < 2 ^ 1024 := by
      refine lt_of_le_of_lt ?_ room
      rw [mul_assoc (s * growth)]
      refine le_mul_of_one_le_right (by positivity) ?_
      exact one_le_mul_of_one_le_of_one_le (one_le_mul_of_one_le_of_one_le power grows) grows
    have left := Coordinate.within_ofNat positive first
    have right := Coordinate.within_nearest_one small
    have finite := Coordinate.isFinite_of_within (Coordinate.within_mul left right room)
    unfold scale?
    rw [if_pos whole, if_pos (by omega)]
    dsimp only
    rw [if_pos finite]
    rfl

theorem isSome_of_scale? {negative : Bool} {unsigned : Option Coordinate}
    (found : unsigned.isSome = true) :
    (if negative then unsigned.map Coordinate.negate else unsigned).isSome = true := by
  cases negative <;> simpa using found

/-- A number whose digits before the point fit, and that is not too large, can be read. -/
theorem real?_isSome {n : Number} (short : digitsValue n.whole ≤ digitLimit)
    (bounded : n.amount ≤ reach) : n.real?.isSome = true := by
  obtain ⟨negative, whole, fraction, exponent⟩ := n
  have leading : absorb 0 whole = (digitsValue whole, []) := absorb_all short
  unfold real?
  cases fraction with
  | none =>
      simp only [leading]
      refine isSome_of_scale? (scale?_isSome ?_)
      simpa [amount] using bounded
  | some digits =>
      have kept := absorb_le (digitsValue whole) digits
      have length := length_absorb_le (digitsValue whole) digits
      simp only [leading]
      refine isSome_of_scale? (scale?_isSome (le_trans ?_ bounded))
      set spare := (absorb (digitsValue whole) digits).2.length
      have place : (([] : List Char).length : ℤ) - (digits.length - spare : ℕ) + exponent.getD 0 =
          spare + (exponent.getD 0 - digits.length) := by
        push_cast [length]
        simp only [List.length_nil]
        ring
      rw [place, zpow_add₀ (by norm_num), zpow_natCast, ← mul_assoc, amount]
      simp only [Option.getD_some, digitsValue_append]
      gcongr
      exact_mod_cast kept

end Json.Number

end PaperFolding
