import PaperFolding.Paper.Color

/-!
Colors of three bytes. They are the ones that can be had back from their channels.
-/

namespace PaperFolding

namespace Color

/-- There is nothing above the red byte. -/
def Narrow (color : Color) : Prop := color.packed ≤ 0xFFFFFF

/-- The color that has the same channels and no more. -/
def rebuilt (color : Color) : Color :=
  ofChannels color.red.toNat color.green.toNat color.blueness.toNat

theorem narrow_iff {color : Color} : color.Narrow ↔ color.packed.toNat < 0x1000000 := by
  rw [Narrow, UInt32.le_iff_toNat_le]
  exact Nat.lt_succ_iff.symm

theorem packed_ofPacked (number : Int) :
    (ofPacked number).packed.toNat = (number % 0x1000000).toNat := by
  have small : (number % 0x1000000).toNat < 2 ^ 32 := by omega
  exact UInt32.toNat_ofNat_of_lt' small

theorem narrow_ofPacked (number : Int) : (ofPacked number).Narrow := by
  rw [narrow_iff, packed_ofPacked]
  omega

/-- The three bytes stand at their places in the number. -/
theorem packed_rebuilt (color : Color) :
    color.rebuilt.packed.toNat = color.packed.toNat % 0x1000000 := by
  have red : color.red.toNat = color.packed.toNat / 65536 % 256 := by
    rw [Color.red, UInt32.toNat_toUInt8, UInt32.toNat_shiftRight, Nat.shiftRight_eq_div_pow]
    rfl
  have green : color.green.toNat = color.packed.toNat / 256 % 256 := by
    rw [Color.green, UInt32.toNat_toUInt8, UInt32.toNat_shiftRight, Nat.shiftRight_eq_div_pow]
    rfl
  have blue : color.blueness.toNat = color.packed.toNat % 256 := by
    rw [Color.blueness, UInt32.toNat_toUInt8]
  rw [rebuilt, ofChannels, packed_ofPacked, red, green, blue]
  omega

theorem rebuilt_eq_iff {color : Color} : color.rebuilt = color ↔ color.Narrow := by
  rw [narrow_iff]
  constructor
  · intro same
    have packed := color.packed_rebuilt
    rw [same] at packed
    omega
  · intro narrow
    have packed := color.packed_rebuilt
    rw [Nat.mod_eq_of_lt narrow] at packed
    obtain ⟨_⟩ := color
    exact congrArg mk (UInt32.toNat_inj.1 packed)

end Color

end PaperFolding
