import PaperFolding.Proofs.Coordinate.Rounding

/-!
The rational number that a coordinate stands for. Comparisons compare these numbers, and an operation whose
result has parts of its own is done without error.
-/

namespace PaperFolding

open Float.Model (UnpackedFloat Format totalExponent)
open Float.Model.UnpackedFloat (Sign roundWithAccuracy decreaseExponent divCore)

/-- The parts stand for exactly this number, in the one way that they can be kept. -/
structure Exactly (u : UnpackedFloat) (q : ℚ) : Prop where
  isFinite : u.isFinite = true
  canonical : Canonical u
  worth : worth u = q

variable {u v : UnpackedFloat} {p q : ℚ}

theorem Nearest.exactly {sign : Sign} {m : ℕ} {e : ℤ} (positive : 0 < m)
    (nearest : Nearest sign (m * 2 ^ (e - lastPlace m e)) (lastPlace m e) u)
    (fits : Fits (m * 2 ^ e)) : Exactly u (sign.apply m * 2 ^ e) :=
  ⟨nearest.isFinite, nearest.canonical, nearest.exact positive fits⟩

theorem apply_neg (sign : Sign) (n : ℤ) : (-sign).apply n = -sign.apply n := by
  cases sign
  · exact (neg_neg n).symm
  · rfl

theorem apply_mul (s s' : Sign) (n n' : ℤ) : (s * s').apply (n * n') = s.apply n * s'.apply n' := by
  cases s <;> cases s' <;> simp only [Sign.apply, neg_mul, mul_neg, neg_neg]

theorem Fits.neg (fits : Fits q) : Fits (-q) := by
  obtain ⟨n, j, short, least, most, rfl⟩ := fits
  exact ⟨-n, j, by rwa [abs_neg], least, most, by push_cast; ring⟩

theorem Fits.whole {n : ℤ} (short : |n| < 2 ^ 53) : Fits n :=
  ⟨n, 0, short, by decide, by decide, by simp⟩

/-- A product is rounded once. -/
theorem nearest_mul {s s' : Sign} {m m' : ℕ} {e e' : ℤ} (positive : 0 < m) (positive' : 0 < m')
    (full : 2 ^ 52 ≤ m ∨ e = -1074) (full' : 2 ^ 52 ≤ m' ∨ e' = -1074) :
    Nearest (s * s') ((m * m' : ℕ) * 2 ^ (e + e' - lastPlace (m * m') (e + e')))
      (lastPlace (m * m') (e + e'))
      (UnpackedFloat.mul Format.binary64 (.finite s m e positive) (.finite s' m' e' positive')) := by
  have long : 52 ≤ (m * m').log2 ∨ e = -1074 ∧ e' = -1074 := by
    rw [Nat.le_log2 (Nat.mul_pos positive positive').ne']
    obtain full | least := full
    · exact .inl (full.trans (Nat.le_mul_of_pos_right m positive'))
    · obtain full' | least' := full'
      · exact .inl (full'.trans (Nat.le_mul_of_pos_left m' positive))
      · exact .inr ⟨least, least'⟩
  have room : e + e' ≤ lastPlace (m * m') (e + e') := by
    unfold lastPlace
    omega
  exact nearest_roundWithAccuracy (Nat.mul_pos positive positive') room rfl

namespace Exactly

theorem neg (exactly : Exactly u q) : Exactly u.neg (-q) := by
  obtain ⟨finite, canonical, rfl⟩ := exactly
  cases u with
  | infinity | notANumber => contradiction
  | zero sign => exact ⟨rfl, trivial, by simp [UnpackedFloat.neg, PaperFolding.worth]⟩
  | finite sign m e positive =>
      refine ⟨rfl, canonical, ?_⟩
      simp only [UnpackedFloat.neg, PaperFolding.worth, apply_neg, Int.cast_neg, neg_mul]

theorem normalize {n e : ℤ} {sign : Sign} (fits : Fits (n * 2 ^ e)) :
    Exactly (UnpackedFloat.normalize Format.binary64 n e sign) (n * 2 ^ e) := by
  unfold UnpackedFloat.normalize
  split
  · rename_i below
    obtain ⟨m, rfl⟩ := Int.exists_eq_neg_ofNat (compare_lt_iff_lt.1 below).le
    have positive : 0 < m := by
      have := compare_lt_iff_lt.1 below
      omega
    rw [neg_neg, Int.toNat_natCast]
    have nearest : Nearest .negative _ _ (UnpackedFloat.round Format.binary64 .negative m e) :=
      nearest_round positive
    simpa [Sign.apply] using nearest.exactly positive (by simpa using fits.neg)
  · rename_i none
    obtain rfl : n = 0 := compare_eq_iff_eq.1 none
    exact ⟨rfl, trivial, by simp [PaperFolding.worth]⟩
  · rename_i above
    obtain ⟨m, rfl⟩ := Int.eq_ofNat_of_zero_le (compare_gt_iff_gt.1 above).le
    have positive : 0 < m := by
      have := compare_gt_iff_gt.1 above
      omega
    rw [Int.toNat_natCast]
    have nearest : Nearest .positive _ _ (UnpackedFloat.round Format.binary64 .positive m e) :=
      nearest_round positive
    exact nearest.exactly positive fits

theorem apply_decreaseExponent (sign : Sign) (m : ℕ) {e least : ℤ} (below : least ≤ e) :
    ((sign.apply (decreaseExponent m e least).1 : ℤ) : ℚ) * 2 ^ least = sign.apply m * 2 ^ e := by
  obtain ⟨k, rfl⟩ : ∃ k : ℕ, e = least + k := ⟨(e - least).toNat, by omega⟩
  rw [decreaseExponent]
  dsimp only
  rw [add_sub_cancel_left, Int.toNat_natCast, Nat.shiftLeft_eq, cast_apply, cast_apply,
    zpow_add₀ two_ne_zero, zpow_natCast]
  push_cast
  ring

theorem add (left : Exactly u p) (right : Exactly v q) (fits : Fits (p + q)) :
    Exactly (UnpackedFloat.add Format.binary64 u v) (p + q) := by
  obtain ⟨leftFinite, leftCanonical, rfl⟩ := left
  obtain ⟨rightFinite, rightCanonical, rfl⟩ := right
  cases u <;> cases v <;> try contradiction
  · rename_i first second
    obtain ⟨sign, zero⟩ : ∃ sign, UnpackedFloat.add Format.binary64 (.zero first) (.zero second) =
        .zero sign := by
      cases first <;> cases second <;> exact ⟨_, rfl⟩
    rw [zero]
    exact ⟨rfl, trivial, (add_zero _).symm⟩
  · exact ⟨rfl, rightCanonical, (zero_add _).symm⟩
  · exact ⟨rfl, leftCanonical, (add_zero _).symm⟩
  · rename_i s m e positive s' m' e' positive'
    have lined : PaperFolding.worth (.finite s m e positive) + PaperFolding.worth (.finite s' m' e' positive') =
        ((s.apply (decreaseExponent m e (min e e')).1 +
          s'.apply (decreaseExponent m' e' (min e e')).1 : ℤ) : ℚ) * 2 ^ min e e' := by
      rw [Int.cast_add, add_mul, apply_decreaseExponent s m (min_le_left e e'),
        apply_decreaseExponent s' m' (min_le_right e e')]
      rfl
    rw [lined] at fits ⊢
    exact normalize fits

theorem sub_eq (u v : UnpackedFloat) :
    UnpackedFloat.sub Format.binary64 u v = UnpackedFloat.add Format.binary64 u v.neg := by
  cases u <;> cases v <;>
    simp only [UnpackedFloat.sub, UnpackedFloat.add, UnpackedFloat.neg, apply_neg, sub_eq_add_neg]

theorem sub (left : Exactly u p) (right : Exactly v q) (fits : Fits (p - q)) :
    Exactly (UnpackedFloat.sub Format.binary64 u v) (p - q) := by
  rw [sub_eq, sub_eq_add_neg]
  exact left.add right.neg (sub_eq_add_neg p q ▸ fits)

theorem mul (left : Exactly u p) (right : Exactly v q) (fits : Fits (p * q)) :
    Exactly (UnpackedFloat.mul Format.binary64 u v) (p * q) := by
  obtain ⟨leftFinite, leftCanonical, rfl⟩ := left
  obtain ⟨rightFinite, rightCanonical, rfl⟩ := right
  cases u <;> cases v <;> try contradiction
  · exact ⟨rfl, trivial, (mul_zero _).symm⟩
  · exact ⟨rfl, trivial, (zero_mul _).symm⟩
  · exact ⟨rfl, trivial, (mul_zero _).symm⟩
  · rename_i s m e positive s' m' e' positive'
    have product : PaperFolding.worth (.finite s m e positive) *
        PaperFolding.worth (.finite s' m' e' positive') =
          (s * s').apply (m * m' : ℕ) * 2 ^ (e + e') := by
      rw [Nat.cast_mul, apply_mul, zpow_add₀ two_ne_zero, PaperFolding.worth, PaperFolding.worth]
      push_cast
      ring
    have nearest : Nearest (s * s') _ _ _ :=
      nearest_mul positive positive' leftCanonical.2.2 rightCanonical.2.2
    rw [product] at fits ⊢
    refine nearest.exactly (Nat.mul_pos positive positive') ?_
    cases sign : s * s' with
    | positive => simpa [sign, Sign.apply] using fits
    | negative => simpa [sign, Sign.apply] using fits.neg

/-! ## Comparison -/

theorem finite_lt {m m' : ℕ} {e e' : ℤ} (short : m < 2 ^ 53) (least : -1074 ≤ e)
    (full : 2 ^ 52 ≤ m' ∨ e' = -1074) (below : e < e') : (m : ℚ) * 2 ^ e < m' * 2 ^ e' := by
  have full : 2 ^ 52 ≤ m' := full.resolve_right (by omega)
  calc (m : ℚ) * 2 ^ e < 2 ^ 53 * 2 ^ e := by
        gcongr
        exact_mod_cast short
    _ = 2 ^ (53 + e) := by
        rw [zpow_add₀ two_ne_zero]
        rfl
    _ ≤ 2 ^ (52 + e') := zpow_le_zpow_right₀ one_le_two (by omega)
    _ = 2 ^ 52 * 2 ^ e' := by
        rw [zpow_add₀ two_ne_zero]
        rfl
    _ ≤ m' * 2 ^ e' := by
        gcongr
        exact_mod_cast full

theorem compare_finite {m m' : ℕ} {e e' : ℤ} (short : m < 2 ^ 53) (short' : m' < 2 ^ 53)
    (least : -1074 ≤ e) (least' : -1074 ≤ e') (full : 2 ^ 52 ≤ m ∨ e = -1074)
    (full' : 2 ^ 52 ≤ m' ∨ e' = -1074) :
    (compare e e').then (compare m m') = compare ((m : ℚ) * 2 ^ e) (m' * 2 ^ e') := by
  obtain below | rfl | above := lt_trichotomy e e'
  · rw [compare_lt_iff_lt.2 below, compare_lt_iff_lt.2 (finite_lt short least full' below)]
    rfl
  · rw [compare_eq_iff_eq.2 rfl, Ordering.eq_then]
    have gap : (0 : ℚ) < 2 ^ e := by positivity
    obtain below | rfl | above := lt_trichotomy m m'
    · rw [compare_lt_iff_lt.2 below, compare_lt_iff_lt.2]
      gcongr
    · rw [compare_eq_iff_eq.2 rfl, compare_eq_iff_eq.2 rfl]
    · rw [compare_gt_iff_gt.2 above, compare_gt_iff_gt.2]
      show (m' : ℚ) * 2 ^ e < m * 2 ^ e
      gcongr
  · rw [compare_gt_iff_gt.2 above, compare_gt_iff_gt.2 (finite_lt short' least' full above)]
    rfl

theorem worth_positive (m : ℕ) (e : ℤ) (positive : 0 < m) :
    PaperFolding.worth (.finite .positive m e positive) = m * 2 ^ e := rfl

theorem worth_negative (m : ℕ) (e : ℤ) (positive : 0 < m) :
    PaperFolding.worth (.finite .negative m e positive) = -(m * 2 ^ e) := by
  simp [PaperFolding.worth, Sign.apply]

theorem worth_zero (sign : Sign) : PaperFolding.worth (.zero sign) = 0 := rfl

theorem compare_neg (a b : ℚ) : Ord.compare (-a) (-b) = (Ord.compare a b).swap := by
  obtain below | rfl | above := lt_trichotomy a b
  · rw [compare_lt_iff_lt.2 below, compare_gt_iff_gt.2 (neg_lt_neg below)]
    rfl
  · rw [compare_eq_iff_eq.2 rfl, compare_eq_iff_eq.2 rfl]
    rfl
  · rw [compare_gt_iff_gt.2 above, compare_lt_iff_lt.2 (neg_lt_neg above)]
    rfl

theorem compare (left : Exactly u p) (right : Exactly v q) :
    u.compare v = some (Ord.compare p q) := by
  obtain ⟨leftFinite, leftCanonical, rfl⟩ := left
  obtain ⟨rightFinite, rightCanonical, rfl⟩ := right
  have size {m : ℕ} {e : ℤ} (positive : 0 < m) : (0 : ℚ) < m * 2 ^ e := by positivity
  cases u <;> cases v <;> try contradiction
  · rfl
  · rename_i s' m' e' positive'
    cases s' with
    | positive =>
        rw [worth_positive, worth_zero, compare_lt_iff_lt.2 (size positive')]
        rfl
    | negative =>
        rw [worth_negative, worth_zero, compare_gt_iff_gt.2 (neg_lt_zero.2 (size positive'))]
        rfl
  · rename_i s m e positive _
    cases s with
    | positive =>
        rw [worth_positive, worth_zero, compare_gt_iff_gt.2 (size positive)]
        rfl
    | negative =>
        rw [worth_negative, worth_zero, compare_lt_iff_lt.2 (neg_lt_zero.2 (size positive))]
        rfl
  · rename_i s m e positive s' m' e' positive'
    obtain ⟨short, least, full⟩ := leftCanonical
    obtain ⟨short', least', full'⟩ := rightCanonical
    have magnitudes := compare_finite short short' least least' full full'
    cases s <;> cases s' <;> simp only [worth_positive, worth_negative, UnpackedFloat.compare]
    · rw [magnitudes, compare_neg]
    · rw [compare_lt_iff_lt.2 ((neg_lt_zero.2 (size positive)).trans (size positive'))]
    · rw [compare_gt_iff_gt.2 ((neg_lt_zero.2 (size positive')).trans (size positive))]
    · rw [magnitudes]

theorem lt (left : Exactly u p) (right : Exactly v q) : u.lt v = true ↔ p < q := by
  rw [UnpackedFloat.lt, left.compare right, beq_iff_eq, Option.some_inj, compare_lt_iff_lt]

theorem le (left : Exactly u p) (right : Exactly v q) : u.le v = true ↔ p ≤ q := by
  rw [UnpackedFloat.le, left.compare right, Option.any_some, ← compare_le_iff_le]
  cases Ord.compare p q <;> decide

theorem beq (left : Exactly u p) (right : Exactly v q) : u.beq v = true ↔ p = q := by
  rw [UnpackedFloat.beq, left.compare right, beq_iff_eq, Option.some_inj, compare_eq_iff_eq]

/-! ## Absolute values, halves -/

theorem abs_worth (sign : Sign) (m : ℕ) (e : ℤ) (positive : 0 < m) :
    |PaperFolding.worth (.finite sign m e positive)| = m * 2 ^ e := by
  have size : (0 : ℚ) ≤ m * 2 ^ e := by positivity
  cases sign
  · rw [worth_negative, abs_neg, abs_of_nonneg size]
  · rw [worth_positive, abs_of_nonneg size]

theorem abs (exactly : Exactly u q) : Exactly u.abs |q| := by
  obtain ⟨finite, canonical, rfl⟩ := exactly
  cases u with
  | infinity | notANumber => contradiction
  | zero sign => exact ⟨rfl, trivial, abs_zero.symm⟩
  | finite sign m e positive => exact ⟨rfl, canonical, (abs_worth sign m e positive).symm⟩

theorem kept (exactly : Exactly u q) (fits : Fits q) : kept u = u := by
  obtain ⟨finite, canonical, rfl⟩ := exactly
  refine unpack_pack ?_
  cases u with
  | infinity | notANumber | zero => trivial
  | finite sign m e positive =>
      obtain ⟨short, least, full⟩ := canonical
      refine ⟨short, least, ?_, full⟩
      obtain ⟨n, j, short', least', most, value⟩ := fits
      by_contra above
      have short' : n.natAbs < 2 ^ 53 := by
        rw [Int.abs_eq_natAbs] at short'
        omega
      have below := finite_lt (e := j) short' least' full (by omega)
      rw [← abs_worth sign m e positive, value, abs_mul, ← Int.cast_abs, Int.abs_eq_natAbs,
        abs_of_nonneg (by positivity)] at below
      exact below.false

/-- The two that areas are halved by. -/
def two : UnpackedFloat := .finite .positive (2 ^ 52) (-51) full_pos

theorem divCore_two {m : ℕ} {e : ℤ} (short : m < 2 ^ 53) (full : 2 ^ 52 ≤ m) (room : -1000 ≤ e) :
    divCore Format.binary64 m e (2 ^ 52) (-51) = (2 * m, e - 2, .exact) := by
  have long : m.log2 = 52 := by
    have := (Nat.le_log2 (by omega : m ≠ 0)).2 full
    have := (Nat.log2_lt (by omega : m ≠ 0)).2 short
    omega
  have target : Format.binary64.targetExponent
      (totalExponent m e - totalExponent (2 ^ 52) (-51)) = e - 2 := by
    simp only [Format.targetExponent, totalExponent, Format.mantissaBits, Format.minExponent, long,
      Nat.log2_two_pow]
    omega
  have shift : m <<< 53 = 2 * m * 2 ^ 52 := by
    rw [Nat.shiftLeft_eq]
    ring
  rw [divCore, target, min_eq_right (by omega)]
  have amount : (e - -51 - (e - 2)).toNat = 53 := by omega
  simp only [amount, shift, Nat.mul_div_cancel _ (Nat.two_pow_pos 52), Nat.mul_mod_left]
  rfl

theorem div_two {n : ℤ} (exactly : Exactly u n) (short : |n| < 2 ^ 53) :
    Exactly (UnpackedFloat.div Format.binary64 u two) (n / 2) := by
  obtain ⟨finite, canonical, value⟩ := exactly
  cases u with
  | infinity | notANumber => contradiction
  | zero sign =>
      rw [← value, worth_zero, zero_div]
      exact ⟨rfl, trivial, rfl⟩
  | finite sign m e positive =>
      obtain ⟨short', least, full⟩ := canonical
      have room : -1000 ≤ e := by
        have some : n ≠ 0 := by
          rintro rfl
          have size := abs_worth sign m e positive
          rw [value, Int.cast_zero, abs_zero] at size
          exact absurd size (by positivity)
        by_contra below
        have small : (m : ℚ) * 2 ^ e < (2 ^ 52 : ℕ) * 2 ^ (-52 : ℤ) :=
          finite_lt short' least (.inl le_rfl) (by omega)
        rw [← abs_worth sign m e positive, value, ← Int.cast_abs] at small
        norm_num at small
        exact some (Int.abs_lt_one_iff.1 (by exact_mod_cast small))
      have full := full.resolve_right (by omega)
      have place : e - 2 ≤ lastPlace (2 * m) (e - 2) := by
        have := (Nat.le_log2 (by omega : 2 * m ≠ 0) (k := 52)).2 (by omega)
        unfold lastPlace
        omega
      have half : ((2 * m : ℕ) : ℚ) * 2 ^ (e - 2) = (|n| : ℤ) * 2 ^ (-1 : ℤ) := by
        rw [Int.cast_abs, ← value, abs_worth, zpow_sub₀ two_ne_zero]
        push_cast
        ring
      have nearest : Nearest sign _ _
          (roundWithAccuracy Format.binary64 sign (2 * m) (e - 2) .exact) :=
        nearest_roundWithAccuracy (by omega) place rfl
      have found := nearest.exactly (by omega)
        ⟨|n|, -1, by rwa [abs_abs], by decide, by decide, half⟩
      have quotient : UnpackedFloat.div Format.binary64 (.finite sign m e positive) two =
          roundWithAccuracy Format.binary64 sign (2 * m) (e - 2) .exact := by
        have same : sign / Sign.positive = sign := by cases sign <;> rfl
        show (match divCore Format.binary64 m e (2 ^ 52) (-51) with
          | (m, e, accuracy) =>
              roundWithAccuracy Format.binary64 (sign / Sign.positive) m e accuracy) = _
        rw [divCore_two short' full room, same]
      have halved : (n : ℚ) / 2 = sign.apply (2 * m : ℕ) * 2 ^ (e - 2) := by
        rw [← value, PaperFolding.worth, cast_apply, cast_apply, zpow_sub₀ two_ne_zero]
        push_cast
        ring
      rwa [quotient, halved]

end Exactly

namespace Coordinate

variable {x y : Coordinate} {a b : ℤ}

def value (x : Coordinate) : ℚ := worth x.parts

theorem exactly (finite : x.isFinite = true) : Exactly x.parts x.value := by
  refine ⟨x.isFinite_eq ▸ finite, ?_, rfl⟩
  have storable := x.storable_parts
  cases parts : x.parts with
  | infinity | notANumber | zero => trivial
  | finite sign m e positive =>
      rw [parts] at storable
      exact ⟨storable.1, storable.2.1, storable.2.2.2⟩

/-- The coordinate is finite and a whole number. -/
def Stands (x : Coordinate) (a : ℤ) : Prop := Exactly x.parts a

namespace Stands

theorem value (stands : x.Stands a) : x.value = a := stands.worth

theorem zero : Coordinate.zero.Stands 0 := ⟨rfl, trivial, Int.cast_zero.symm⟩

theorem negate (stands : x.Stands a) : x.negate.Stands (-a) := by
  rw [Stands, parts_negate, Int.cast_neg]
  exact stands.neg

theorem abs (stands : x.Stands a) : x.abs.Stands |a| := by
  rw [Stands, parts_abs, Int.cast_abs]
  exact Exactly.abs stands

theorem add (left : x.Stands a) (right : y.Stands b) (short : |a + b| < 2 ^ 53) :
    (x + y).Stands (a + b) := by
  have fits := Fits.whole short
  rw [Int.cast_add] at fits
  have sum := Exactly.add left right fits
  rw [Stands, parts_add, sum.kept fits, Int.cast_add]
  exact sum

theorem sub (left : x.Stands a) (right : y.Stands b) (short : |a - b| < 2 ^ 53) :
    (x - y).Stands (a - b) := by
  have fits := Fits.whole short
  rw [Int.cast_sub] at fits
  have difference := Exactly.sub left right fits
  rw [Stands, parts_sub, difference.kept fits, Int.cast_sub]
  exact difference

theorem mul (left : x.Stands a) (right : y.Stands b) (short : |a * b| < 2 ^ 53) :
    (x * y).Stands (a * b) := by
  have fits := Fits.whole short
  rw [Int.cast_mul] at fits
  have product := Exactly.mul left right fits
  rw [Stands, parts_mul, product.kept fits, Int.cast_mul]
  exact product

theorem lt (left : x.Stands a) (right : y.Stands b) : x.lt y = true ↔ a < b := by
  rw [lt_eq, Exactly.lt left right, Int.cast_lt]

theorem le (left : x.Stands a) (right : y.Stands b) : x.le y = true ↔ a ≤ b := by
  rw [le_eq, Exactly.le left right, Int.cast_le]

theorem same (left : x.Stands a) (right : y.Stands b) : x.same y = true ↔ a = b := by
  rw [same_eq, Exactly.beq left right, Int.cast_inj]

/-- Half of a whole number is zero only if the number is. -/
theorem half_same_zero (stands : x.Stands a) (short : |a| < 2 ^ 53) :
    (x / Coordinate.ofNat 2).same Coordinate.zero = true ↔ a = 0 := by
  have bits : Coordinate.ofNat 2 = ⟨0x4000000000000000⟩ := by decide +kernel
  have two : (Coordinate.ofNat 2).parts = Exactly.two := by
    rw [bits]
    rfl
  have half := stands.div_two short
  have fits : Fits ((a : ℚ) / 2) := ⟨a, -1, short, by decide, by decide, by
    rw [zpow_neg_one, div_eq_mul_inv]⟩
  rw [same_eq, parts_div, two, half.kept fits]
  refine (half.beq zero).trans ?_
  simp

theorem one : Stands ⟨0x3FF0000000000000⟩ 1 := by
  have parts : Coordinate.parts ⟨0x3FF0000000000000⟩ =
      .finite .positive (2 ^ 52) (-52) full_pos := rfl
  rw [Stands, parts]
  exact ⟨rfl, ⟨by decide, by decide, .inl le_rfl⟩, by norm_num [worth, Sign.apply]⟩

theorem ofNat {n : ℕ} (short : n < 2 ^ 53) : (Coordinate.ofNat n).Stands n := by
  have bounded : |(n : ℤ)| < 2 ^ 53 := by
    rw [abs_of_nonneg n.cast_nonneg]
    exact_mod_cast short
  have fits := Fits.whole bounded
  have exact : Exactly (UnpackedFloat.normalize Format.binary64 n 0 .positive)
      ((n : ℤ) * 2 ^ (0 : ℤ)) := Exactly.normalize (by simpa using fits)
  rw [zpow_zero, mul_one] at exact
  have counted : Exactly n.toUInt64.toFloat.toModel.unpack (n : ℤ) := by
    have same : n.toUInt64.toFloat.toModel.unpack =
        PaperFolding.kept (UnpackedFloat.normalize Format.binary64 n.toUInt64.toNat 0 .positive) := rfl
    have stored : n.toUInt64.toNat = n := Nat.mod_eq_of_lt (by omega)
    rw [same, stored, exact.kept fits]
    exact exact
  have product := Exactly.mul counted one (by simpa using fits)
  have made : Coordinate.ofNat n =
      ofFloat (n.toUInt64.toFloat * Coordinate.toFloat ⟨0x3FF0000000000000⟩) := by
    show ofFloat (Float.ofScientific n false 0) = _
    rw [Float.ofScientific, dif_pos ⟨short, by decide⟩]
    rfl
  have parts : (Coordinate.ofNat n).parts = PaperFolding.kept (UnpackedFloat.mul Format.binary64
      n.toUInt64.toFloat.toModel.unpack (Coordinate.parts ⟨0x3FF0000000000000⟩)) := by
    rw [made, ← unpack_toFloat ⟨0x3FF0000000000000⟩]
    rfl
  rw [Int.cast_one, mul_one] at product
  rw [Stands, parts, product.kept fits]
  exact product

end Stands

end Coordinate

end PaperFolding
