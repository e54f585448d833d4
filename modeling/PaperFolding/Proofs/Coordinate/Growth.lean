import PaperFolding.Proofs.Coordinate.Value

/-!
How much rounding can add: a value that is not below one grows by at most one part in `2 ^ 53`, so products
whose factors leave this much room do not become infinite.
-/

namespace PaperFolding

open Float.Model (UnpackedFloat Format)
open Float.Model.UnpackedFloat (Sign roundWithAccuracy)

/-- What a rounded value is at most, as a multiple of the value before it was rounded. -/
def growth : ℚ := 1 + 2 ^ (-53 : ℤ)

/-- The parts of a finite value between one and `q`. -/
structure Within (u : UnpackedFloat) (q : ℚ) : Prop where
  isFinite : u.isFinite = true
  canonical : Canonical u
  low : 1 ≤ worth u
  high : worth u ≤ q

variable {u v : UnpackedFloat} {p q : ℚ}

theorem log2_nonneg {m : ℕ} {e : ℤ} (large : (1 : ℚ) ≤ m * 2 ^ e) : 0 ≤ m.log2 + e := by
  have leading : (2 : ℚ) ^ (0 : ℤ) < 2 ^ (m.log2 + 1 + e : ℤ) := by
    calc (2 : ℚ) ^ (0 : ℤ) ≤ m * 2 ^ e := by simpa using large
      _ < (2 ^ (m.log2 + 1) : ℕ) * 2 ^ e := by
          gcongr
          exact Nat.lt_log2_self
      _ = 2 ^ (m.log2 + 1 + e : ℤ) := by
          rw [zpow_add₀ two_ne_zero]
          push_cast
          rfl
  have := (zpow_lt_zpow_iff_right₀ (one_lt_two (α := ℚ))).1 leading
  omega

theorem Nearest.within {m : ℕ} {e : ℤ} (positive : 0 < m) (large : (1 : ℚ) ≤ m * 2 ^ e)
    (nearest : Nearest .positive (m * 2 ^ (e - lastPlace m e)) (lastPlace m e) u) :
    Within u (m * 2 ^ e * growth) := by
  obtain ⟨r, low, high, value⟩ := nearest.near
  have top := log2_nonneg large
  have place : (m.log2 + e : ℤ) = 52 + lastPlace m e := by
    unfold lastPlace
    omega
  set t := lastPlace m e
  have unit : (0 : ℚ) < 2 ^ t := by positivity
  have scaled : (m * 2 ^ (e - t) : ℚ) * 2 ^ t = m * 2 ^ e := by
    rw [mul_assoc, ← zpow_add₀ two_ne_zero, sub_add_cancel]
  have first : (2 : ℚ) ^ (m.log2 + e : ℤ) = 2 ^ 52 * 2 ^ t := by
    rw [place, zpow_add₀ two_ne_zero]
    rfl
  have leading : (2 : ℚ) ^ 52 * 2 ^ t ≤ m * 2 ^ e := by
    rw [← first, zpow_add₀ two_ne_zero, zpow_natCast]
    gcongr
    exact_mod_cast Nat.log2_self_le positive.ne'
  have value : worth u = r * 2 ^ t := by simpa [Sign.apply] using value
  refine ⟨nearest.isFinite, nearest.canonical, ?_, ?_⟩
  · have full : (2 : ℚ) ^ 52 ≤ m * 2 ^ (e - t) := by
      rwa [← scaled, mul_le_mul_iff_left₀ unit] at leading
    have whole : ((2 ^ 52 : ℕ) : ℚ) < (r + 1 : ℕ) := by
      push_cast
      linarith
    have whole : 2 ^ 52 ≤ r := Nat.le_of_lt_succ (Nat.cast_lt.1 whole)
    calc (1 : ℚ) ≤ 2 ^ (m.log2 + e : ℤ) := one_le_zpow₀ one_le_two top
      _ = (2 ^ 52 : ℕ) * 2 ^ t := by
          rw [first]
          norm_num
      _ ≤ r * 2 ^ t := by gcongr
      _ = worth u := value.symm
  · calc worth u = r * 2 ^ t := value
      _ ≤ (m * 2 ^ (e - t) + 1 / 2) * 2 ^ t := by gcongr
      _ = m * 2 ^ e + 2 ^ 52 * 2 ^ t * 2 ^ (-53 : ℤ) := by
          rw [add_mul, scaled]
          ring
      _ ≤ m * 2 ^ e + m * 2 ^ e * 2 ^ (-53 : ℤ) := by gcongr
      _ = m * 2 ^ e * growth := by
          unfold growth
          ring

namespace Within

theorem mono (within : Within u p) (le : p ≤ q) : Within u q :=
  ⟨within.isFinite, within.canonical, within.low, within.high.trans le⟩

theorem exists_finite (within : Within u q) :
    ∃ (m : ℕ) (e : ℤ) (positive : 0 < m), u = .finite .positive m e positive := by
  obtain ⟨finite, -, low, -⟩ := within
  cases u with
  | infinity | notANumber => contradiction
  | zero sign => exact absurd low (by norm_num [worth])
  | finite sign m e positive =>
      cases sign with
      | positive => exact ⟨m, e, positive, rfl⟩
      | negative =>
          rw [Exactly.worth_negative] at low
          have size : (0 : ℚ) < m * 2 ^ e := by positivity
          linarith

theorem mul (left : Within u p) (right : Within v q) :
    Within (UnpackedFloat.mul Format.binary64 u v) (p * q * growth) := by
  obtain ⟨m, e, positive, rfl⟩ := left.exists_finite
  obtain ⟨m', e', positive', rfl⟩ := right.exists_finite
  obtain ⟨-, leftCanonical, leftLow, leftHigh⟩ := left
  obtain ⟨-, rightCanonical, rightLow, rightHigh⟩ := right
  rw [Exactly.worth_positive] at leftLow leftHigh rightLow rightHigh
  have product : ((m * m' : ℕ) : ℚ) * 2 ^ (e + e') = m * 2 ^ e * (m' * 2 ^ e') := by
    rw [zpow_add₀ two_ne_zero]
    push_cast
    ring
  have large : (1 : ℚ) ≤ (m * m' : ℕ) * 2 ^ (e + e') := by
    rw [product]
    exact one_le_mul_of_one_le_of_one_le leftLow rightLow
  have nearest : Nearest (.positive * .positive) _ _ _ :=
    nearest_mul positive positive' leftCanonical.2.2 rightCanonical.2.2
  refine (nearest.within (Nat.mul_pos positive positive') large).mono ?_
  rw [product]
  have grows : 0 ≤ growth := by norm_num [growth]
  have room : 0 ≤ p := by linarith
  gcongr

/-- A value that is not too large has bits of its own. -/
theorem kept (within : Within u q) (room : q < 2 ^ 1024) : kept u = u := by
  obtain ⟨m, e, positive, rfl⟩ := within.exists_finite
  obtain ⟨-, ⟨short, least, full⟩, -, high⟩ := within
  refine unpack_pack ⟨short, least, ?_, full⟩
  by_contra above
  have full : 2 ^ 52 ≤ m := full.resolve_right (by omega)
  have top : (2 : ℚ) ^ 1024 ≤ m * 2 ^ e := by
    calc (2 : ℚ) ^ 1024 = (2 ^ 52 : ℕ) * 2 ^ (972 : ℤ) := by
          rw [zpow_ofNat, Nat.cast_pow, Nat.cast_ofNat, ← pow_add]
      _ ≤ m * 2 ^ e := by
          gcongr
          · exact one_le_two
          · omega
  rw [Exactly.worth_positive] at high
  exact (high.trans_lt room).not_ge top

end Within

namespace Coordinate

variable {x y : Coordinate}

theorem isFinite_of_within (within : Within x.parts q) : x.isFinite = true := by
  rw [isFinite_eq]
  exact within.isFinite

theorem within_mul (left : Within x.parts p) (right : Within y.parts q)
    (room : p * q * growth < 2 ^ 1024) : Within (x * y).parts (p * q * growth) := by
  have product := left.mul right
  rw [parts_mul, product.kept room]
  exact product

theorem ofScientific_eq {m e : ℕ} (positive : 0 < m) (small : e ≤ 308) :
    UnpackedFloat.ofScientific Format.binary64 m e =
      roundWithAccuracy Format.binary64 .positive ((m * 10 ^ e) <<< 53) (-53) .exact := by
  have low : ¬ (e : ℤ) > 2 ^ Format.binary64.exponentBits := by
    show ¬ (e : ℤ) > 2 ^ 11
    omega
  have high : ¬ (e : ℤ) < -(2 ^ Format.binary64.exponentBits + (m.log2 : ℤ)) := by
    show ¬ (e : ℤ) < -(2 ^ 11 + (m.log2 : ℤ))
    omega
  have scaled : m <<< 53 * 10 ^ e = (m * 10 ^ e) <<< 53 := by
    rw [Nat.shiftLeft_eq, Nat.shiftLeft_eq, Nat.mul_right_comm]
  rw [UnpackedFloat.ofScientific, dif_neg positive.ne', if_neg low, if_neg high,
    if_pos e.cast_nonneg, ← scaled]
  rfl

theorem ofNat_eq {n : ℕ} (long : 2 ^ 53 ≤ n) :
    Coordinate.ofNat n = ofFloat ⟨Float.Model.ofScientific n 0⟩ := by
  show ofFloat (Float.ofScientific n false 0) = _
  rw [Float.ofScientific, dif_neg (by omega)]
  rfl

theorem within_ofNat {n : ℕ} (positive : 0 < n) (room : n * growth < 2 ^ 1024) :
    Within (Coordinate.ofNat n).parts (n * growth) := by
  have large : (1 : ℚ) ≤ n := by exact_mod_cast positive
  obtain short | long := lt_or_ge n (2 ^ 53)
  · obtain ⟨finite, canonical, value⟩ := Stands.ofNat short
    have grows : (1 : ℚ) ≤ growth := by norm_num [growth]
    rw [Int.cast_natCast] at value
    refine ⟨finite, canonical, value ▸ large, ?_⟩
    rw [value]
    exact le_mul_of_one_le_right n.cast_nonneg grows
  · have shifted : 0 < n <<< 53 := by
      rw [Nat.shiftLeft_eq]
      positivity
    have value : ((n <<< 53 : ℕ) : ℚ) * 2 ^ (-53 : ℤ) = n := by
      rw [Nat.shiftLeft_eq, Nat.cast_mul, Nat.cast_pow, Nat.cast_ofNat, mul_assoc, zpow_neg,
        zpow_ofNat, mul_inv_cancel₀ (by positivity), mul_one]
    have place : (-53 : ℤ) ≤ lastPlace (n <<< 53) (-53) := by
      unfold lastPlace
      rw [log2_shiftLeft positive]
      omega
    have nearest : Nearest .positive _ _
        (roundWithAccuracy Format.binary64 .positive (n <<< 53) (-53) .exact) :=
      nearest_roundWithAccuracy shifted place rfl
    have rounded := nearest.within shifted (value.symm ▸ large)
    rw [value] at rounded
    have scientific := ofScientific_eq positive (Nat.zero_le 308)
    rw [pow_zero, mul_one] at scientific
    have parts : (Coordinate.ofNat n).parts =
        PaperFolding.kept (UnpackedFloat.ofScientific Format.binary64 n (0 : ℕ)) := by
      rw [ofNat_eq long]
      rfl
    rw [parts, scientific, rounded.kept room]
    exact rounded

/-- The powers of ten that numbers in a text are scaled by. -/
theorem nearest_one (e : ℕ) (small : e ≤ 308) : nearest 1 e = Coordinate.ofNat (10 ^ e) := by
  obtain listed | beyond := lt_or_ge e 23
  · have each : ∀ e < 23, nearest 1 (e : ℕ) = Coordinate.ofNat (10 ^ e) := by decide +kernel
    exact each e listed
  · have long : 2 ^ 53 ≤ 10 ^ e :=
      le_trans (by norm_num) (Nat.pow_le_pow_right (by decide) beyond)
    have scientific : Float.Model.ofScientific 1 e = Float.Model.ofScientific (10 ^ e) (0 : ℕ) := by
      show Float.Model.pack (UnpackedFloat.ofScientific Format.binary64 1 e) =
        Float.Model.pack (UnpackedFloat.ofScientific Format.binary64 (10 ^ e) (0 : ℕ))
      rw [ofScientific_eq one_pos small, ofScientific_eq (by positivity) (Nat.zero_le 308), one_mul,
        pow_zero, mul_one]
    have places : ((Nat.toDigits 10 1).length : ℤ) + e = 1 + e := rfl
    rw [ofNat_eq long, nearest, if_neg one_ne_zero]
    dsimp only
    rw [places, if_neg (by omega), if_neg (by omega)]
    show ofFloat (Float.ofScientific 1 (decide ((e : ℤ) < 0)) e) = _
    rw [decide_eq_false (by omega), Float.ofScientific, dif_neg (by omega)]
    exact congrArg (fun model => ofFloat ⟨model⟩) scientific

theorem within_nearest_one {e : ℕ} (small : e ≤ 308) :
    Within (nearest 1 e).parts ((10 ^ e : ℕ) * growth) := by
  have greatest : (10 ^ 308 : ℕ) * growth < (2 : ℚ) ^ 1024 := by
    have whole : ((10 ^ 308 * (2 ^ 53 + 1) : ℕ) : ℚ) < (2 ^ 1024 * 2 ^ 53 : ℕ) := by
      exact_mod_cast (by decide +kernel : 10 ^ 308 * (2 ^ 53 + 1) < 2 ^ 1024 * 2 ^ 53)
    have scaled : growth = (2 ^ 53 + 1) / 2 ^ 53 := by norm_num [growth]
    rw [scaled, ← mul_div_assoc, div_lt_iff₀ (by positivity)]
    exact_mod_cast whole
  rw [nearest_one e small]
  refine within_ofNat (by positivity) (lt_of_le_of_lt ?_ greatest)
  have grows : 0 ≤ growth := by norm_num [growth]
  gcongr
  decide

theorem isFinite_zero_mul (zero : x.Stands 0) (finite : y.isFinite = true) :
    (x * y).isFinite = true := by
  have fits : Fits (((0 : ℤ) : ℚ) * y.value) :=
    ⟨0, 0, by decide, by decide, by decide, by simp⟩
  have product := Exactly.mul zero (exactly finite) fits
  rw [isFinite_eq, parts_mul, product.kept fits]
  exact product.isFinite

end Coordinate

end PaperFolding
