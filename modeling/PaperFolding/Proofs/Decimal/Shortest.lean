import Mathlib.Algebra.Order.Field.Power
import Mathlib.Data.Rat.Lemmas
import Mathlib.Order.Compare
import Mathlib.Tactic.FieldSimp
import Mathlib.Tactic.Linarith
import Mathlib.Tactic.Positivity
import Mathlib.Tactic.Ring
import PaperFolding.Decimal.Shortest

/-!
The shortest decimal of a magnitude is positive, and it is at most half a unit of the last place above.
-/

namespace PaperFolding.Decimal

def Numeral.worth (d : Numeral) : ℚ := d.digits * 10 ^ d.exponent

theorem zpow_eq_div {b : ℚ} (positive : 0 < b) (i : ℤ) : b ^ i = b ^ i.toNat / b ^ (-i).toNat := by
  rw [← zpow_natCast, ← zpow_natCast, ← zpow_sub₀ positive.ne']
  congr 1
  omega

theorem le_of_compareScaled {a n : ℕ} {i j : ℤ} (among : compareScaled a i n j ≠ .gt) :
    (a : ℚ) * 10 ^ i ≤ n * 2 ^ j := by
  have whole : a * 10 ^ i.toNat * 2 ^ (-j).toNat ≤ n * 2 ^ j.toNat * 10 ^ (-i).toNat :=
    not_lt.1 fun above => among (compare_gt_iff_gt.2 above)
  have whole : (a : ℚ) * 10 ^ i.toNat * 2 ^ (-j).toNat ≤ n * 2 ^ j.toNat * 10 ^ (-i).toNat := by
    exact_mod_cast whole
  rw [zpow_eq_div (by norm_num) i, zpow_eq_div two_pos j, ← mul_div_assoc, ← mul_div_assoc,
    div_le_div_iff₀ (by positivity) (by positivity)]
  exact whole

theorem worth_le_of_readsBack {x : Magnitude} {d : Numeral} (reads : x.readsBack d = true) :
    d.worth ≤ (x.significand + 1 / 2) * 2 ^ x.exponent := by
  simp only [Magnitude.readsBack, decide_eq_true_eq] at reads
  have high : compareScaled d.digits d.exponent (4 * x.significand + 2) (x.exponent - 2) ≠ .gt := by
    rcases reads.2 with less | ⟨-, same⟩
    · simp [less]
    · simp [same]
  refine (le_of_compareScaled high).trans_eq ?_
  rw [zpow_sub₀ two_ne_zero]
  push_cast
  ring

theorem positive_of_readsBack {x : Magnitude} {d : Numeral} (positive : 0 < x.significand)
    (reads : x.readsBack d = true) : 0 < d.digits := by
  by_contra none
  have none : d.digits = 0 := by omega
  simp only [Magnitude.readsBack, decide_eq_true_eq] at reads
  have low : compareScaled d.digits d.exponent
      (if x.narrowBelow then 4 * x.significand - 1 else 4 * x.significand - 2)
      (x.exponent - 2) = .lt := by
    rw [compareScaled, none, zero_mul, zero_mul, compare_lt_iff_lt]
    refine Nat.mul_pos (Nat.mul_pos ?_ (Nat.pow_pos two_pos)) (Nat.pow_pos (by decide))
    split <;> omega
  rw [low] at reads
  simp at reads

theorem exact_spec (x : Magnitude) :
    x.exact.worth = x.significand * 2 ^ x.exponent ∧
      (0 < x.significand → 0 < x.exact.digits) := by
  unfold Magnitude.exact
  split
  · rename_i whole
    refine ⟨?_, fun positive => Nat.mul_pos positive (Nat.pow_pos two_pos)⟩
    obtain ⟨k, exponent⟩ := Int.eq_ofNat_of_zero_le whole
    simp [Numeral.worth, exponent]
  · rename_i fractional
    refine ⟨?_, fun positive => Nat.mul_pos positive (Nat.pow_pos (by decide))⟩
    obtain ⟨k, exponent⟩ := Int.exists_eq_neg_ofNat (by omega : x.exponent ≤ 0)
    have ten : (10 : ℚ) ^ k = 5 ^ k * 2 ^ k := by
      rw [← mul_pow]
      norm_num
    simp [Numeral.worth, exponent, ten]
    field_simp

theorem strip_spec (fuel : ℕ) (d : Numeral) :
    (d.strip fuel).worth = d.worth ∧ (0 < d.digits → 0 < (d.strip fuel).digits) := by
  induction fuel generalizing d with
  | zero => exact ⟨rfl, id⟩
  | succ fuel induction =>
      unfold Numeral.strip
      split
      · rename_i padded
        obtain ⟨k, digits⟩ := Nat.dvd_of_mod_eq_zero padded.2
        obtain ⟨same, positive⟩ := induction ⟨d.digits / 10, d.exponent + 1⟩
        refine ⟨?_, fun _ => positive (show 0 < d.digits / 10 by omega)⟩
        rw [same, Numeral.worth, Numeral.worth, digits, Nat.mul_div_cancel_left k (by decide),
          zpow_add_one₀ (by norm_num)]
        push_cast
        ring
      · exact ⟨rfl, id⟩

theorem shortest_spec {x : Magnitude} (positive : 0 < x.significand) (tie : Tie) :
    (x.shortest tie).worth ≤ (x.significand + 1 / 2) * 2 ^ x.exponent ∧
      0 < (x.shortest tie).digits := by
  unfold Magnitude.shortest
  dsimp only
  cases found : (List.range 17).findSome? fun n => x.onGrid? tie (x.scale - (n + 1 : Nat)) with
  | none =>
      obtain ⟨exact, digits⟩ := exact_spec x
      obtain ⟨same, kept⟩ := strip_spec 17 x.exact
      refine ⟨?_, kept (digits positive)⟩
      rw [Option.getD_none, same, exact]
      gcongr
      linarith
  | some d =>
      obtain ⟨n, -, grid⟩ := List.exists_of_findSome?_eq_some found
      have reads := Magnitude.readsBack_of_onGrid? grid
      obtain ⟨same, kept⟩ := strip_spec 17 d
      refine ⟨?_, kept (positive_of_readsBack positive reads)⟩
      rw [Option.getD_some, same]
      exact worth_le_of_readsBack reads

end PaperFolding.Decimal
