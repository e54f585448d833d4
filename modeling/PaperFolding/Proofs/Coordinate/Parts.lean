import Mathlib
import PaperFolding.Coordinate

/-!
A coordinate is a sign, a significand and an exponent, or a zero, an infinity or no number. Its bits say
which, and the significand and the exponent are the only ones that its bits can stand for.
-/

namespace PaperFolding

open Float.Model (UnpackedFloat Format)
open Float.Model.UnpackedFloat (Sign unpackSign unpackExponent unpackMantissa packComponents
  unpackExponent_packComponents unpackMantissa_packComponents unpackSign_packComponents)

/-! ## Parts that can be kept in bits -/

/-- The parts of a value as bits keep them: the significand fills its bits unless the exponent is the
least one. -/
def Storable : UnpackedFloat → Prop
  | .finite _ m e _ => m < 2 ^ 53 ∧ -1074 ≤ e ∧ e ≤ 971 ∧ (2 ^ 52 ≤ m ∨ e = -1074)
  | _ => True

theorem toNat_implicit (m : BitVec 52) : (1#1 ++ m).toNat = 2 ^ 52 + m.toNat := by
  rw [BitVec.toNat_append, ← Nat.shiftLeft_add_eq_or_of_lt m.isLt]
  rfl

theorem toNat_unpackExponent (b : BitVec 64) :
    (@unpackExponent Format.binary64 b).toNat = b.toNat / 2 ^ 52 % 2 ^ 11 := by
  simp [unpackExponent, Nat.shiftRight_eq_div_pow]

theorem toNat_unpackMantissa (b : BitVec 64) :
    (@unpackMantissa Format.binary64 b).toNat = b.toNat % 2 ^ 52 := by
  simp [unpackMantissa]

theorem storable_unpack (b : BitVec 64) : Storable (UnpackedFloat.unpack Format.binary64 b) := by
  have m : (@unpackMantissa Format.binary64 b).toNat < 2 ^ 52 :=
    (@unpackMantissa Format.binary64 b).isLt
  have e : (@unpackExponent Format.binary64 b).toNat < 2 ^ 11 :=
    (@unpackExponent Format.binary64 b).isLt
  simp only [UnpackedFloat.unpack, Format.exponentBias]
  split
  · split <;> trivial
  · rename_i bounded
    split
    · rename_i least
      split
      · trivial
      · rw [least]
        exact ⟨by omega, by decide, by decide, .inr (by decide)⟩
    · rename_i normal
      have positive : (@unpackExponent Format.binary64 b).toNat ≠ 0 :=
        fun zero => normal (BitVec.eq_of_toNat_eq zero)
      have below : (@unpackExponent Format.binary64 b).toNat ≠ 2047 :=
        fun full => bounded (BitVec.eq_of_toNat_eq full)
      simp only [Storable, toNat_implicit]
      omega

theorem unpack_components_normal (sign : Sign) {n : Nat} (m : BitVec 52) (positive : 0 < n)
    (below : n < 2047) :
    UnpackedFloat.unpack Format.binary64
        (packComponents Format.binary64 sign (BitVec.ofNat 11 n) m) =
      .finite sign (2 ^ 52 + m.toNat) (n - 1075) (by omega) := by
  have exponent : (BitVec.ofNat 11 n).toNat = n := by
    rw [BitVec.toNat_ofNat]
    omega
  have bounded : BitVec.ofNat 11 n ≠ -1#11 := by
    intro full
    have same : n = 2047 := by
      rw [← exponent, full]
      rfl
    omega
  have normal : BitVec.ofNat 11 n ≠ 0#11 := by
    intro least
    have same : n = 0 := by
      rw [← exponent, least]
      rfl
    omega
  simp only [UnpackedFloat.unpack, unpackExponent_packComponents, unpackMantissa_packComponents,
    unpackSign_packComponents, Sign.ofBitVec_toBitVec, if_neg bounded, if_neg normal, exponent,
    toNat_implicit]
  rfl

theorem unpack_components_subnormal (sign : Sign) {m : Nat} (positive : 0 < m)
    (short : m < 2 ^ 52) :
    UnpackedFloat.unpack Format.binary64
        (packComponents Format.binary64 sign 0#11 (BitVec.ofNat 52 m)) =
      .finite sign m (-1074) positive := by
  have significand : (BitVec.ofNat 52 m).toNat = m := by
    rw [BitVec.toNat_ofNat]
    omega
  have some : BitVec.ofNat 52 m ≠ 0#52 := by
    intro none
    have same := congrArg BitVec.toNat none
    rw [significand] at same
    exact positive.ne' same
  simp only [UnpackedFloat.unpack, unpackExponent_packComponents, unpackMantissa_packComponents,
    unpackSign_packComponents, Sign.ofBitVec_toBitVec, dif_neg some, significand]
  rfl

theorem unpack_pack {u : UnpackedFloat} (storable : Storable u) :
    UnpackedFloat.unpack Format.binary64 (UnpackedFloat.pack Format.binary64 u) = u := by
  cases u with
  | infinity sign => cases sign <;> rfl
  | notANumber => rfl
  | zero sign => cases sign <;> rfl
  | finite sign m e positive =>
      obtain ⟨bounded, low, high, full⟩ := storable
      have biased : e + (Format.binary64.exponentBias : Int) +
          (Format.binary64.mantissaBitsWithoutImplicit : Int) = e + 1075 := by
        simp [Format.exponentBias, add_assoc]
      have normal : m.log2 + 1 = Format.binary64.mantissaBits ↔ 2 ^ 52 ≤ m := by
        have above := Nat.le_log2 positive.ne' (k := 52)
        have below := Nat.log2_lt positive.ne' (k := 53)
        simp only [Format.mantissaBits]
        omega
      have room : ¬ 2 ^ 11 ≤ (e + 1075).toNat + 1 := by omega
      simp only [UnpackedFloat.pack, biased, normal]
      rw [if_neg room]
      split
      · rename_i long
        rw [unpack_components_normal sign _ (by omega) (by omega)]
        congr 1
        · rw [BitVec.toNat_ofNat]
          omega
        · omega
      · rename_i short
        rw [unpack_components_subnormal sign positive (by omega)]
        congr 1
        omega

/-- What is left of a value once it has been kept in bits. -/
def kept (u : UnpackedFloat) : UnpackedFloat :=
  UnpackedFloat.unpack Format.binary64 (UnpackedFloat.pack Format.binary64 u)

namespace Coordinate

def parts (x : Coordinate) : UnpackedFloat :=
  UnpackedFloat.unpack Format.binary64 x.bits.toBitVec

theorem storable_parts (x : Coordinate) : Storable x.parts := storable_unpack _

theorem unpack_toFloat (x : Coordinate) : x.toFloat.toModel.unpack = x.parts :=
  unpack_pack x.storable_parts

theorem parts_sub (x y : Coordinate) :
    (x - y).parts = kept (UnpackedFloat.sub Format.binary64 x.parts y.parts) := by
  rw [← unpack_toFloat x, ← unpack_toFloat y]
  rfl

theorem parts_mul (x y : Coordinate) :
    (x * y).parts = kept (UnpackedFloat.mul Format.binary64 x.parts y.parts) := by
  rw [← unpack_toFloat x, ← unpack_toFloat y]
  rfl

theorem lt_eq (x y : Coordinate) : x.lt y = x.parts.lt y.parts := by
  rw [← unpack_toFloat x, ← unpack_toFloat y]
  rw [lt, Bool.eq_iff_iff, decide_eq_true_iff]
  exact decide_eq_true_iff (p := x.toFloat.toModel < y.toFloat.toModel)

theorem le_eq (x y : Coordinate) : x.le y = x.parts.le y.parts := by
  rw [← unpack_toFloat x, ← unpack_toFloat y]
  rw [le, Bool.eq_iff_iff, decide_eq_true_iff]
  exact decide_eq_true_iff (p := x.toFloat.toModel ≤ y.toFloat.toModel)

theorem same_eq (x y : Coordinate) : x.same y = x.parts.beq y.parts := by
  rw [← unpack_toFloat x, ← unpack_toFloat y]
  rfl

theorem parts_add (x y : Coordinate) :
    (x + y).parts = kept (UnpackedFloat.add Format.binary64 x.parts y.parts) := by
  rw [← unpack_toFloat x, ← unpack_toFloat y]
  rfl

theorem parts_div (x y : Coordinate) :
    (x / y).parts = kept (UnpackedFloat.div Format.binary64 x.parts y.parts) := by
  rw [← unpack_toFloat x, ← unpack_toFloat y]
  rfl

theorem toNat_abs (x : Coordinate) : x.abs.bits.toNat = x.bits.toNat % 2 ^ 63 := by
  rw [abs, UInt64.toNat_and, show (0x7FFFFFFFFFFFFFFF : UInt64).toNat = 2 ^ 63 - 1 from rfl,
    Nat.and_two_pow_sub_one_eq_mod]

theorem isFinite_iff (x : Coordinate) :
    x.isFinite = true ↔ x.bits.toNat / 2 ^ 52 % 2 ^ 11 ≠ 2047 := by
  have bound : x.bits.toNat < 2 ^ 64 := x.bits.toNat_lt
  rw [isFinite, decide_eq_true_iff, UInt64.lt_iff_toNat_lt, toNat_abs]
  show x.bits.toNat % 2 ^ 63 < 2047 * 2 ^ 52 ↔ _
  omega

theorem isFinite_eq (x : Coordinate) : x.isFinite = x.parts.isFinite := by
  rw [Bool.eq_iff_iff, isFinite_iff]
  have exponent : @unpackExponent Format.binary64 x.bits.toBitVec = -1#11 ↔
      x.bits.toNat / 2 ^ 52 % 2 ^ 11 = 2047 := by
    rw [← BitVec.toNat_inj, toNat_unpackExponent]
    rfl
  rw [ne_eq, ← exponent]
  simp only [parts, UnpackedFloat.unpack]
  split
  · rename_i full
    split <;> simp [UnpackedFloat.isFinite, full]
  · rename_i short
    split <;> (try split) <;> simpa [UnpackedFloat.isFinite] using short

/-! ## The sign -/

theorem negate_toBitVec (x : Coordinate) :
    x.negate.bits.toBitVec = x.bits.toBitVec ^^^ BitVec.twoPow 64 63 := rfl

theorem abs_toBitVec (x : Coordinate) :
    x.abs.bits.toBitVec = x.bits.toBitVec &&& ~~~BitVec.twoPow 64 63 := rfl

theorem unpackSign_eq (b : BitVec 64) :
    Sign.ofBitVec (@unpackSign Format.binary64 b) =
      if b.getLsbD 63 then .negative else .positive := by
  have sign : @unpackSign Format.binary64 b = BitVec.ofBool (b.getLsbD 63) := by
    ext i inside
    obtain rfl : i = 0 := by omega
    simp [unpackSign, ← BitVec.getLsbD_eq_getElem]
  rw [sign]
  cases b.getLsbD 63 <;> rfl

theorem unpackMantissa_congr {b c : BitVec 64}
    (agree : ∀ i < 63, b.getLsbD i = c.getLsbD i) :
    @unpackMantissa Format.binary64 b = @unpackMantissa Format.binary64 c := by
  ext i inside
  have inside : i < 52 := inside
  simp [unpackMantissa, agree i (by omega)]

theorem unpackExponent_congr {b c : BitVec 64}
    (agree : ∀ i < 63, b.getLsbD i = c.getLsbD i) :
    @unpackExponent Format.binary64 b = @unpackExponent Format.binary64 c := by
  ext i inside
  have inside : i < 11 := inside
  simp [unpackExponent, agree (52 + i) (by omega)]

theorem parts_negate (x : Coordinate) : x.negate.parts = x.parts.neg := by
  have agree : ∀ i < 63, x.negate.bits.toBitVec.getLsbD i = x.bits.toBitVec.getLsbD i := by
    intro i below
    simp [negate_toBitVec, below.ne']
  have sign : Sign.ofBitVec (@unpackSign Format.binary64 x.negate.bits.toBitVec) =
      -Sign.ofBitVec (@unpackSign Format.binary64 x.bits.toBitVec) := by
    rw [unpackSign_eq, unpackSign_eq, negate_toBitVec, BitVec.getLsbD_xor]
    cases x.bits.toBitVec.getLsbD 63 <;> rfl
  simp only [parts, UnpackedFloat.unpack, unpackMantissa_congr agree, unpackExponent_congr agree,
    sign]
  split
  · split <;> rfl
  · split
    · split <;> rfl
    · rfl

theorem parts_abs (x : Coordinate) : x.abs.parts = x.parts.abs := by
  have agree : ∀ i < 63, x.abs.bits.toBitVec.getLsbD i = x.bits.toBitVec.getLsbD i := by
    intro i below
    simp [abs_toBitVec, below.ne']
    omega
  have sign : Sign.ofBitVec (@unpackSign Format.binary64 x.abs.bits.toBitVec) =
      .positive := by
    rw [unpackSign_eq, abs_toBitVec, BitVec.getLsbD_and]
    cases x.bits.toBitVec.getLsbD 63 <;> rfl
  simp only [parts, UnpackedFloat.unpack, unpackMantissa_congr agree, unpackExponent_congr agree,
    sign]
  split
  · split <;> rfl
  · split
    · split <;> rfl
    · rfl

end Coordinate

end PaperFolding
