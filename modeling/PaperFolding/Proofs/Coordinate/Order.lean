import PaperFolding.Proofs.Coordinate.Value

/-!
The order of coordinates by their bits: it is the order of their values, except that minus zero stands before
zero.
-/

namespace PaperFolding

open Float.Model (UnpackedFloat Format)
open Float.Model.UnpackedFloat (Sign unpackSign unpackExponent unpackMantissa)

/-- What the bits behind the sign stand for. -/
def magnitude (bits : ℕ) : ℚ :=
  if bits < 2 ^ 52 then bits * 2 ^ (-1074 : ℤ)
  else (2 ^ 52 + bits % 2 ^ 52 : ℕ) * 2 ^ ((bits / 2 ^ 52 : ℕ) - 1075 : ℤ)

theorem magnitude_zero : magnitude 0 = 0 := by simp [magnitude]

theorem magnitude_strictMono : StrictMono magnitude := by
  refine strictMono_nat_of_lt_succ fun bits => ?_
  obtain small | large := lt_or_ge bits (2 ^ 52)
  · obtain small' | crossing := lt_or_ge (bits + 1) (2 ^ 52)
    · rw [magnitude, magnitude, if_pos small, if_pos small']
      gcongr
      exact bits.lt_succ_self
    · obtain rfl : bits = 2 ^ 52 - 1 := by omega
      norm_num [magnitude]
  · rw [magnitude, magnitude, if_neg large.not_gt, if_neg (by omega)]
    obtain same | carry : (bits + 1) / 2 ^ 52 = bits / 2 ^ 52 ∧
        (bits + 1) % 2 ^ 52 = bits % 2 ^ 52 + 1 ∨
        (bits + 1) / 2 ^ 52 = bits / 2 ^ 52 + 1 ∧ bits % 2 ^ 52 = 2 ^ 52 - 1 ∧
          (bits + 1) % 2 ^ 52 = 0 := by omega
    · rw [same.1, same.2]
      gcongr
      omega
    · have gap : (0 : ℚ) < 2 ^ (((bits / 2 ^ 52 : ℕ) : ℤ) - 1075) := by positivity
      rw [carry.1, carry.2.1, carry.2.2, Nat.cast_succ, add_sub_right_comm,
        zpow_add_one₀ two_ne_zero]
      generalize (2 : ℚ) ^ (((bits / 2 ^ 52 : ℕ) : ℤ) - 1075) = unit at gap
      push_cast
      linarith

theorem magnitude_nonneg (bits : ℕ) : 0 ≤ magnitude bits :=
  magnitude_zero ▸ magnitude_strictMono.monotone bits.zero_le

theorem magnitude_pos {bits : ℕ} (some : 0 < bits) : 0 < magnitude bits :=
  magnitude_zero ▸ magnitude_strictMono some

namespace Coordinate

variable {x y : Coordinate}

theorem signed_iff (x : Coordinate) : x.bits >>> 63 = 1 ↔ 2 ^ 63 ≤ x.bits.toNat := by
  have bound : x.bits.toNat < 2 ^ 64 := x.bits.toNat_lt
  rw [← UInt64.toNat_inj, UInt64.toNat_shiftRight, show (63 : UInt64).toNat % 64 = 63 from rfl,
    Nat.shiftRight_eq_div_pow, UInt64.toNat_one]
  omega

theorem rank_injective : Function.Injective rank := by
  intro x y same
  have low : x.bits.toNat < 2 ^ 64 := x.bits.toNat_lt
  have high : y.bits.toNat < 2 ^ 64 := y.bits.toNat_lt
  simp only [rank, toNat_abs, signed_iff] at same
  have bits : x.bits.toNat = y.bits.toNat := by
    split at same <;> split at same <;> omega
  exact congrArg mk (UInt64.toNat_inj.1 bits)

theorem sign_eq (x : Coordinate) :
    Sign.ofBitVec (@unpackSign Format.binary64 x.bits.toBitVec) =
      if 2 ^ 63 ≤ x.bits.toNat then .negative else .positive := by
  have bound : x.bits.toNat < 2 ^ 64 := x.bits.toNat_lt
  have top : x.bits.toBitVec.getLsbD 63 = decide (2 ^ 63 ≤ x.bits.toNat) := by
    show x.bits.toNat.testBit 63 = _
    rw [Nat.testBit_eq_decide_div_mod_eq]
    congr 1
    apply propext
    omega
  rw [unpackSign_eq, top]
  simp only [decide_eq_true_eq]

theorem worth_signed (negative : Prop) [Decidable negative] (m : ℕ) (e : ℤ) (positive : 0 < m) :
    worth (.finite (if negative then .negative else .positive) m e positive) =
      if negative then -(m * 2 ^ e : ℚ) else m * 2 ^ e := by
  split
  · exact Exactly.worth_negative m e positive
  · exact Exactly.worth_positive m e positive

theorem value_eq (finite : x.isFinite = true) :
    x.value = if 2 ^ 63 ≤ x.bits.toNat then -magnitude (x.bits.toNat % 2 ^ 63)
      else magnitude (x.bits.toNat % 2 ^ 63) := by
  have bound : x.bits.toNat < 2 ^ 64 := x.bits.toNat_lt
  have short := x.isFinite_iff.1 finite
  have exponent : (@unpackExponent Format.binary64 x.bits.toBitVec).toNat =
      x.bits.toNat / 2 ^ 52 % 2 ^ 11 := toNat_unpackExponent _
  have mantissa : (@unpackMantissa Format.binary64 x.bits.toBitVec).toNat =
      x.bits.toNat % 2 ^ 52 := toNat_unpackMantissa _
  have size (m : ℕ) (e : ℤ) (positive : 0 < m)
      (meets : magnitude (x.bits.toNat % 2 ^ 63) = m * 2 ^ e) :
      worth (.finite (if 2 ^ 63 ≤ x.bits.toNat then .negative else .positive) m e positive) =
        if 2 ^ 63 ≤ x.bits.toNat then -magnitude (x.bits.toNat % 2 ^ 63)
          else magnitude (x.bits.toNat % 2 ^ 63) := by
    rw [worth_signed, meets]
  simp only [value, parts, UnpackedFloat.unpack, sign_eq]
  split
  · rename_i full
    exact absurd (by rw [← exponent, full]; rfl) short
  · split
    · rename_i least
      rw [least] at exponent
      have exponent : x.bits.toNat / 2 ^ 52 % 2 ^ 11 = 0 := exponent.symm
      split
      · rename_i none
        rw [none] at mantissa
        have mantissa : x.bits.toNat % 2 ^ 52 = 0 := mantissa.symm
        have empty : x.bits.toNat % 2 ^ 63 = 0 := by omega
        rw [empty, magnitude_zero, neg_zero, ite_self]
        rfl
      · refine size _ _ _ ?_
        rw [magnitude, if_pos (by omega), least, mantissa]
        congr 2
        omega
    · rename_i some
      have positive : x.bits.toNat / 2 ^ 52 % 2 ^ 11 ≠ 0 := fun zero =>
        some (BitVec.eq_of_toNat_eq (exponent.trans zero))
      refine size _ _ _ ?_
      rw [magnitude, if_neg (by omega), toNat_implicit, mantissa, exponent]
      rw [show x.bits.toNat % 2 ^ 63 % 2 ^ 52 = x.bits.toNat % 2 ^ 52 by omega,
        show x.bits.toNat % 2 ^ 63 / 2 ^ 52 = x.bits.toNat / 2 ^ 52 % 2 ^ 11 by omega]
      rfl

theorem value_le_of_rank_le (left : x.isFinite = true) (right : y.isFinite = true)
    (ranked : x.rank ≤ y.rank) : x.value ≤ y.value := by
  rw [value_eq left, value_eq right]
  simp only [rank, toNat_abs, signed_iff] at ranked
  split at ranked <;> split at ranked <;> rename_i first second <;>
    simp only [first, second, if_true, if_false]
  · exact neg_le_neg (magnitude_strictMono.monotone (by omega))
  · exact (neg_nonpos.2 (magnitude_nonneg _)).trans (magnitude_nonneg _)
  · omega
  · exact magnitude_strictMono.monotone (by omega)

/-- Where the order by bits tells apart what has one value, it is the two zeros. -/
theorem zeros_of_rank_lt (left : x.isFinite = true) (right : y.isFinite = true)
    (ranked : x.rank < y.rank) (same : x.value = y.value) :
    x = zero.negate ∧ y = zero := by
  have low : x.bits.toNat < 2 ^ 64 := x.bits.toNat_lt
  have high : y.bits.toNat < 2 ^ 64 := y.bits.toNat_lt
  rw [value_eq left, value_eq right] at same
  simp only [rank, toNat_abs, signed_iff] at ranked
  split at ranked <;> split at ranked <;> rename_i first second <;>
    simp only [first, second, if_true, if_false] at same
  · have := magnitude_strictMono.injective (neg_injective same)
    omega
  · have none : magnitude (x.bits.toNat % 2 ^ 63) = 0 ∧ magnitude (y.bits.toNat % 2 ^ 63) = 0 := by
      have := magnitude_nonneg (x.bits.toNat % 2 ^ 63)
      have := magnitude_nonneg (y.bits.toNat % 2 ^ 63)
      constructor <;> linarith
    have bits : x.bits.toNat % 2 ^ 63 = 0 ∧ y.bits.toNat % 2 ^ 63 = 0 := by
      refine ⟨?_, ?_⟩ <;> by_contra some
      · exact (magnitude_pos (Nat.pos_of_ne_zero some)).ne' none.1
      · exact (magnitude_pos (Nat.pos_of_ne_zero some)).ne' none.2
    constructor
    · refine congrArg mk (UInt64.toNat_inj.1 ?_)
      show _ = 2 ^ 63
      omega
    · refine congrArg mk (UInt64.toNat_inj.1 ?_)
      show _ = 0
      omega
  · omega
  · have := magnitude_strictMono.injective same
    omega

end Coordinate

end PaperFolding
