import PaperFolding.Proofs.Coordinate.Parts

/-!
Rounding to the nearest value: what is rounded is off by at most half a unit of the last place, and a value
that has parts of its own is left as it is.
-/

namespace PaperFolding

open Float.Model (UnpackedFloat Format totalExponent)
open Float.Model.UnpackedFloat (Sign Accuracy ExtendedMantissa shiftToExponent shiftToTargetExponent
  roundWithAccuracy)

/-! ## Shifted significands -/

/-- The significand with its two spare bits tells where `q` lies. -/
def Locates (found : ExtendedMantissa) (q : ℚ) : Prop :=
  match found with
  | ⟨m, false, false⟩ => q = m
  | ⟨m, false, true⟩ => m < q ∧ q < m + 1 / 2
  | ⟨m, true, false⟩ => q = m + 1 / 2
  | ⟨m, true, true⟩ => m + 1 / 2 < q ∧ q < m + 1

namespace Locates

variable {found : ExtendedMantissa} {q : ℚ}

theorem shiftRightOne (locates : Locates found q) : Locates found.shiftRightOne (q / 2) := by
  obtain ⟨m, round, sticky⟩ := found
  obtain ⟨n, rfl | rfl⟩ := m.even_or_odd'
  · have shifted : ExtendedMantissa.shiftRightOne ⟨2 * n, round, sticky⟩ =
        ⟨n, false, round || sticky⟩ := by simp [ExtendedMantissa.shiftRightOne]
    rw [shifted]
    cases round <;> cases sticky <;> simp only [Locates, Bool.or_true, Bool.or_false,
      Bool.or_self] at locates ⊢ <;> push_cast at locates <;>
      first | (constructor <;> linarith) | linarith
  · have shifted : ExtendedMantissa.shiftRightOne ⟨2 * n + 1, round, sticky⟩ =
        ⟨n, true, round || sticky⟩ := by
      simp only [ExtendedMantissa.shiftRightOne, ExtendedMantissa.mk.injEq, and_true]
      exact ⟨by omega, by simp⟩
    rw [shifted]
    cases round <;> cases sticky <;> simp only [Locates, Bool.or_true, Bool.or_false,
      Bool.or_self] at locates ⊢ <;> push_cast at locates <;>
      first | (constructor <;> linarith) | linarith

theorem shiftRight (locates : Locates found q) (k : ℕ) : Locates (found >>> k) (q / 2 ^ k) := by
  show Locates (k.repeat ExtendedMantissa.shiftRightOne found) _
  induction k with
  | zero => simpa [Nat.repeat] using locates
  | succ k induction =>
      rw [pow_succ, ← div_div]
      exact induction.shiftRightOne

theorem near (locates : Locates found q) :
    q - 1 / 2 ≤ found.roundedMantissa ∧ (found.roundedMantissa : ℚ) ≤ q + 1 / 2 := by
  obtain ⟨m, round, sticky⟩ := found
  have low : (0 : ℚ) ≤ (m % 2 : ℕ) := by positivity
  have high : ((m % 2 : ℕ) : ℚ) ≤ 1 := by
    exact_mod_cast Nat.le_of_lt_succ (Nat.mod_lt m two_pos)
  cases round <;> cases sticky <;>
    simp only [Locates, ExtendedMantissa.roundedMantissa, ExtendedMantissa.accuracy,
      Accuracy.roundToNearestEven, Nat.cast_add, Nat.cast_one] at locates ⊢ <;>
    constructor <;> linarith

theorem floor (locates : Locates found q) : found.mantissa ≤ q ∧ q < found.mantissa + 1 := by
  obtain ⟨m, round, sticky⟩ := found
  cases round <;> cases sticky <;> simp only [Locates] at locates ⊢ <;> constructor <;> linarith

end Locates

theorem mantissa_shiftRight (found : ExtendedMantissa) (k : ℕ) :
    (found >>> k).mantissa = found.mantissa / 2 ^ k := by
  show (k.repeat ExtendedMantissa.shiftRightOne found).mantissa = _
  induction k with
  | zero => simp [Nat.repeat]
  | succ k induction =>
      rw [pow_succ, ← Nat.div_div_eq_div_mul, ← induction]
      rfl

theorem mantissa_ofMantissaAndAccuracy (m : ℕ) (accuracy : Accuracy) :
    (ExtendedMantissa.ofMantissaAndAccuracy m accuracy).mantissa = m := by
  unfold ExtendedMantissa.ofMantissaAndAccuracy
  split <;> rfl

/-! ## The exponent of the last place -/

/-- The exponent that a value with this significand and exponent is kept with. -/
def lastPlace (m : ℕ) (e : ℤ) : ℤ := max (m.log2 + e - 52) (-1074)

theorem targetExponent_eq (m : ℕ) (e : ℤ) :
    Format.binary64.targetExponent (totalExponent m e) = lastPlace m e := by
  simp [Format.targetExponent, totalExponent, Format.mantissaBits, Format.minExponent, lastPlace]
  congr 1
  ring

/-- The significand fills its bits, unless the exponent is the least one. -/
def Canonical : UnpackedFloat → Prop
  | .finite _ m e _ => m < 2 ^ 53 ∧ -1074 ≤ e ∧ (2 ^ 52 ≤ m ∨ e = -1074)
  | _ => True

def worth : UnpackedFloat → ℚ
  | .finite sign m e _ => sign.apply m * 2 ^ e
  | _ => 0

theorem full_pos : 0 < 2 ^ 52 := Nat.two_pow_pos 52

/-- What a significand comes to that had to be cut by a carry. -/
def carried (sign : Sign) (r : ℕ) (t : ℤ) : UnpackedFloat :=
  if positive : 0 < r then
    if r < 2 ^ 53 then .finite sign r t positive else .finite sign (2 ^ 52) (t + 1) full_pos
  else .zero sign

theorem shift_short {r : ℕ} {t : ℤ} (short : r < 2 ^ 53) (least : -1074 ≤ t) :
    shiftToTargetExponent Format.binary64 r t .exact = (⟨r, false, false⟩, t) := by
  have long : r.log2 ≤ 52 := by
    obtain rfl | positive := Nat.eq_zero_or_pos r
    · decide
    · exact Nat.le_of_lt_succ ((Nat.log2_lt positive.ne').2 short)
  have still : (lastPlace r t - t).toNat = 0 := by
    unfold lastPlace
    omega
  rw [shiftToTargetExponent, targetExponent_eq, shiftToExponent, still]
  simp [ExtendedMantissa.ofMantissaAndAccuracy, HShiftRight.hShiftRight, Nat.repeat]

theorem shift_carry {t : ℤ} (least : -1074 ≤ t) :
    shiftToTargetExponent Format.binary64 (2 ^ 53) t .exact = (⟨2 ^ 52, false, false⟩, t + 1) := by
  have once : (lastPlace (2 ^ 53) t - t).toNat = 1 := by
    rw [lastPlace, Nat.log2_two_pow]
    omega
  rw [shiftToTargetExponent, targetExponent_eq, shiftToExponent, once]
  rfl

theorem roundWithAccuracy_eq {sign : Sign} {m : ℕ} {e : ℤ} {accuracy : Accuracy} {r : ℕ} {k : ℕ}
    (shift : (lastPlace m e - e).toNat = k)
    (rounded : (ExtendedMantissa.ofMantissaAndAccuracy m accuracy >>> k).roundedMantissa = r)
    (bounded : r ≤ 2 ^ 53) :
    roundWithAccuracy Format.binary64 sign m e accuracy = carried sign r (e + k) := by
  have least : -1074 ≤ e + k := by
    unfold lastPlace at shift
    omega
  rw [roundWithAccuracy, shiftToTargetExponent, targetExponent_eq, shiftToExponent, shift]
  dsimp only
  rw [rounded]
  obtain short | rfl := bounded.lt_or_eq
  · rw [shift_short short least]
    obtain rfl | positive := Nat.eq_zero_or_pos r
    · rfl
    · simp only [carried, dif_pos positive, if_pos short, dif_neg positive.ne']
  · simp only [shift_carry least, carried]
    rfl

theorem isFinite_carried (sign : Sign) (r : ℕ) (t : ℤ) : (carried sign r t).isFinite = true := by
  unfold carried
  split
  · split <;> rfl
  · rfl

theorem worth_carried {sign : Sign} {r : ℕ} {t : ℤ} (bounded : r ≤ 2 ^ 53) :
    worth (carried sign r t) = sign.apply r * 2 ^ t := by
  unfold carried
  split
  · split
    · rfl
    · obtain rfl : r = 2 ^ 53 := by omega
      rw [worth, zpow_add_one₀ two_ne_zero]
      cases sign <;> simp [Sign.apply] <;> ring
  · obtain rfl : r = 0 := by omega
    cases sign <;> simp [worth, Sign.apply]

theorem canonical_carried {sign : Sign} {r : ℕ} {t : ℤ} (least : -1074 ≤ t)
    (full : 2 ^ 52 ≤ r ∨ t = -1074) : Canonical (carried sign r t) := by
  unfold carried
  split
  · split
    · exact ⟨by assumption, least, full⟩
    · exact ⟨by decide, by omega, .inl le_rfl⟩
  · trivial

/-- The value that `q` units of the place `t` are rounded to. -/
structure Nearest (sign : Sign) (q : ℚ) (t : ℤ) (u : UnpackedFloat) : Prop where
  isFinite : u.isFinite = true
  canonical : Canonical u
  near : ∃ r : ℕ, q - 1 / 2 ≤ r ∧ r ≤ q + 1 / 2 ∧ worth u = sign.apply r * 2 ^ t

theorem nearest_roundWithAccuracy {sign : Sign} {m : ℕ} {e : ℤ} {accuracy : Accuracy} {q : ℚ}
    (positive : 0 < m) (room : e ≤ lastPlace m e)
    (locates : Locates (.ofMantissaAndAccuracy m accuracy) q) :
    Nearest sign (q * 2 ^ (e - lastPlace m e)) (lastPlace m e)
      (roundWithAccuracy Format.binary64 sign m e accuracy) := by
  obtain ⟨k, shift⟩ : ∃ k : ℕ, lastPlace m e = e + k :=
    ⟨(lastPlace m e - e).toNat, by omega⟩
  have least : -1074 ≤ lastPlace m e := le_max_right _ _
  have scaled : q * 2 ^ (e - lastPlace m e) = q / 2 ^ k := by
    rw [shift, sub_add_cancel_left, zpow_neg, zpow_natCast, div_eq_mul_inv]
  have found := locates.shiftRight k
  obtain ⟨low, high⟩ := found.near
  have floor := found.floor
  rw [mantissa_shiftRight, mantissa_ofMantissaAndAccuracy] at floor
  set r := (ExtendedMantissa.ofMantissaAndAccuracy m accuracy >>> k).roundedMantissa with rounded
  have below : r ≤ m / 2 ^ k + 1 := by
    have : (r : ℚ) < (m / 2 ^ k + 2 : ℕ) := by
      push_cast
      linarith [floor.2]
    exact Nat.le_of_lt_succ (Nat.cast_lt.1 this)
  have above : m / 2 ^ k ≤ r := by
    have : ((m / 2 ^ k : ℕ) : ℚ) < (r + 1 : ℕ) := by
      push_cast
      linarith [floor.1]
    exact Nat.le_of_lt_succ (Nat.cast_lt.1 this)
  have short : m / 2 ^ k < 2 ^ 53 := by
    rw [Nat.div_lt_iff_lt_mul (Nat.two_pow_pos k), ← pow_add]
    refine Nat.lt_log2_self.trans_le (Nat.pow_le_pow_right two_pos ?_)
    unfold lastPlace at shift
    omega
  have full : 2 ^ 52 ≤ m / 2 ^ k ∨ lastPlace m e = -1074 := by
    by_cases least' : lastPlace m e = -1074
    · exact .inr least'
    · left
      rw [Nat.le_div_iff_mul_le (Nat.two_pow_pos k), ← pow_add]
      refine (Nat.pow_le_pow_right two_pos ?_).trans (Nat.log2_self_le positive.ne')
      unfold lastPlace at shift least'
      omega
  rw [roundWithAccuracy_eq (k := k) (by omega) rounded.symm (by omega), ← shift, scaled]
  exact ⟨isFinite_carried _ _ _, canonical_carried least (full.imp_left above.trans'),
    r, low, high, worth_carried (by omega)⟩

theorem log2_shiftLeft {m : ℕ} (positive : 0 < m) (k : ℕ) : (m <<< k).log2 = m.log2 + k := by
  induction k with
  | zero => rfl
  | succ k induction =>
      have shifted : m <<< k ≠ 0 := by simpa [Nat.shiftLeft_eq_zero_iff] using positive.ne'
      rw [Nat.shiftLeft_succ, Nat.log2_two_mul shifted, induction, add_assoc]

theorem lastPlace_shiftLeft {m : ℕ} (positive : 0 < m) (e : ℤ) (k : ℕ) :
    lastPlace (m <<< k) (e - k) = lastPlace m e := by
  rw [lastPlace, lastPlace, log2_shiftLeft positive]
  push_cast
  congr 2
  ring

theorem nearest_round {sign : Sign} {m : ℕ} {e : ℤ} (positive : 0 < m) :
    Nearest sign (m * 2 ^ (e - lastPlace m e)) (lastPlace m e)
      (UnpackedFloat.round Format.binary64 sign m e) := by
  rw [UnpackedFloat.round, targetExponent_eq, UnpackedFloat.decreaseExponent]
  dsimp only
  set k := (e - lastPlace m e).toNat
  have place := lastPlace_shiftLeft positive e k
  have shifted : 0 < m <<< k := by
    rw [Nat.shiftLeft_eq]
    positivity
  have nearest : Nearest sign ((m <<< k : ℕ) * _) _
      (roundWithAccuracy Format.binary64 sign (m <<< k) (e - k) .exact) :=
    nearest_roundWithAccuracy shifted (by omega) rfl
  rw [place] at nearest
  convert nearest using 1
  rw [Nat.shiftLeft_eq, sub_right_comm, zpow_sub₀ two_ne_zero _ (k : ℤ), zpow_natCast]
  push_cast
  field_simp

/-! ## Values that are kept as they are -/

/-- The value has parts that bits can keep. -/
def Fits (q : ℚ) : Prop := ∃ n j : ℤ, |n| < 2 ^ 53 ∧ -1074 ≤ j ∧ j ≤ 971 ∧ q = n * 2 ^ j

theorem cast_apply (sign : Sign) (n : ℕ) :
    ((sign.apply n : ℤ) : ℚ) = (sign.apply 1 : ℤ) * n := by
  cases sign <;> simp [Sign.apply]

theorem lastPlace_le {m : ℕ} {e n j : ℤ} (positive : 0 < m) (short : n < 2 ^ 53)
    (least : -1074 ≤ j) (value : (m * 2 ^ e : ℚ) = n * 2 ^ j) : lastPlace m e ≤ j := by
  have leading : (2 : ℚ) ^ ((m.log2 : ℤ) + e) < 2 ^ (53 + j) := by
    calc (2 : ℚ) ^ ((m.log2 : ℤ) + e) = (2 ^ m.log2 : ℕ) * 2 ^ e := by
          rw [zpow_add₀ two_ne_zero]
          push_cast
          rfl
      _ ≤ m * 2 ^ e := by
          gcongr
          exact Nat.log2_self_le positive.ne'
      _ = n * 2 ^ j := value
      _ < 2 ^ 53 * 2 ^ j := by
          gcongr
          exact_mod_cast short
      _ = 2 ^ (53 + j) := by
          rw [zpow_add₀ two_ne_zero]
          rfl
  have below := (zpow_lt_zpow_iff_right₀ (one_lt_two (α := ℚ))).1 leading
  unfold lastPlace
  omega

theorem Nearest.exact {sign : Sign} {m : ℕ} {e : ℤ} {u : UnpackedFloat} (positive : 0 < m)
    (nearest : Nearest sign (m * 2 ^ (e - lastPlace m e)) (lastPlace m e) u)
    (fits : Fits (m * 2 ^ e)) : worth u = sign.apply m * 2 ^ e := by
  obtain ⟨n, j, short, least, -, value⟩ := fits
  obtain ⟨r, low, high, worth⟩ := nearest.near
  have place := lastPlace_le positive (abs_lt.1 short).2 least value
  obtain ⟨k, shift⟩ : ∃ k : ℕ, j = lastPlace m e + k := ⟨(j - lastPlace m e).toNat, by omega⟩
  have whole : (m * 2 ^ (e - lastPlace m e) : ℚ) = (n * 2 ^ k : ℤ) := by
    rw [zpow_sub₀ two_ne_zero, ← mul_div_assoc, value, shift, zpow_add₀ two_ne_zero]
    push_cast
    field_simp
    rfl
  rw [whole] at low high
  have rounded : (r : ℤ) = n * 2 ^ k := by
    have below : ((r : ℤ) : ℚ) < (n * 2 ^ k + 1 : ℤ) := by
      push_cast at high ⊢
      linarith
    have above : ((n * 2 ^ k : ℤ) : ℚ) < (r + 1 : ℤ) := by
      push_cast at low ⊢
      linarith
    rw [Int.cast_lt] at below above
    omega
  rw [worth, cast_apply, cast_apply, mul_assoc, mul_assoc, value, ← Int.cast_natCast r, rounded,
    shift, zpow_add₀ two_ne_zero]
  push_cast
  rw [zpow_natCast]
  ring

end PaperFolding
