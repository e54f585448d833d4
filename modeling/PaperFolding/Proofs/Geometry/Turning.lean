import PaperFolding.Geometry.Vector
import PaperFolding.Proofs.Coordinate.Value

/-!
Ways from point to point, computed without error, and on which side of a way a point lies. Ways that all
lead to the right, or all to the left, are ordered by their slope.
-/

namespace PaperFolding

/-- A way in the plane: how far it leads to the right and how far up. -/
abbrev Way := ℚ × ℚ

namespace Way

variable {u v w : Way} {σ : ℚ}

/-- Positive if the second way turns to the left of the first. -/
def wedge (u v : Way) : ℚ := u.1 * v.2 - u.2 * v.1

theorem wedge_swap (u v : Way) : wedge v u = -wedge u v := by
  unfold wedge
  ring

theorem wedge_smul (square : σ * σ = 1) (u v : Way) : wedge (σ • u) (σ • v) = wedge u v := by
  simp only [wedge, Prod.smul_fst, Prod.smul_snd, smul_eq_mul]
  linear_combination (u.1 * v.2 - u.2 * v.1) * square

theorem wedge_along (u v w : Way) :
    wedge u w * v.1 = wedge u v * w.1 + wedge v w * u.1 ∧
      wedge u w * v.2 = wedge u v * w.2 + wedge v w * u.2 := by
  unfold wedge
  constructor <;> ring

/-- To the right, or straight up. -/
def Rising (u : Way) : Prop := 0 < u.1 ∨ u.1 = 0 ∧ 0 < u.2

/-- To the right or straight up for a chain that runs to the right, the opposite for one that runs to
the left. -/
def Forward (σ : ℚ) (u : Way) : Prop := Rising (σ • u)

theorem Rising.add (first : Rising u) (second : Rising v) : Rising (u + v) := by
  obtain right | ⟨straight, up⟩ := first <;> obtain right' | ⟨straight', up'⟩ := second
  · exact .inl (add_pos right right')
  · exact .inl (by simpa [straight'] using right)
  · exact .inl (by simpa [straight] using right')
  · exact .inr ⟨by simp [straight, straight'], add_pos up up'⟩

theorem Rising.trans (first : Rising u) (second : Rising v) (third : Rising w)
    (left : 0 ≤ wedge u v) (left' : 0 ≤ wedge v w) : 0 ≤ wedge u w := by
  have along := wedge_along u v w
  obtain right | ⟨straight, up⟩ := second
  · have onward : 0 ≤ u.1 ∧ 0 ≤ w.1 :=
      ⟨first.elim le_of_lt fun up => up.1.ge, third.elim le_of_lt fun up => up.1.ge⟩
    have : 0 ≤ wedge u w * v.1 := by
      rw [along.1]
      exact add_nonneg (mul_nonneg left onward.2) (mul_nonneg left' onward.1)
    exact nonneg_of_mul_nonneg_left this right
  · rw [wedge, straight] at left left'
    have back : w.1 ≤ 0 := by nlinarith
    obtain right' | ⟨straight', up'⟩ := third
    · linarith
    · rw [wedge, straight']
      have onward : 0 ≤ u.1 := first.elim le_of_lt fun up => up.1.ge
      nlinarith

theorem Rising.irrefl (rising : Rising u) : ¬ Rising (-u) := by
  rintro (right | ⟨straight, up⟩) <;> obtain right' | ⟨straight', up'⟩ := rising <;>
    simp only [Prod.fst_neg, Prod.snd_neg] at * <;> linarith

theorem Rising.ne_zero (rising : Rising u) : u ≠ 0 := by
  rintro rfl
  exact rising.irrefl (by rwa [neg_zero])

theorem Rising.total (u : Way) : u = 0 ∨ Rising u ∨ Rising (-u) := by
  obtain left | straight | right := lt_trichotomy u.1 0
  · exact .inr (.inr (.inl (by simpa using left)))
  · obtain down | level | up := lt_trichotomy u.2 0
    · exact .inr (.inr (.inr (by simpa using ⟨straight, down⟩)))
    · exact .inl (Prod.ext straight level)
    · exact .inr (.inl (.inr ⟨straight, up⟩))
  · exact .inr (.inl (.inl right))

/-- A way that turns to the left of a rising one and does not lead back rises itself. -/
theorem Rising.of_turn (rising : Rising u) (onward : 0 ≤ v.1) (left : 0 < wedge u v) :
    Rising v := by
  obtain right | straight := onward.lt_or_eq
  · exact .inl right
  · refine .inr ⟨straight.symm, ?_⟩
    rw [wedge, ← straight, mul_zero, sub_zero] at left
    have back : 0 ≤ u.1 := rising.elim le_of_lt fun up => up.1.ge
    exact pos_of_mul_pos_right left back

/-- As `Rising.trans`, where the first way may also lead straight down, and then the others do not lead
beyond it. -/
theorem Rising.trans_of_onward (second : Rising v) (third : Rising w) (beyond : v.1 ≤ u.1)
    (beyond' : w.1 ≤ u.1) (left : 0 ≤ wedge u v) (left' : 0 ≤ wedge v w) : 0 ≤ wedge u w := by
  have onward : 0 ≤ v.1 ∧ 0 ≤ w.1 :=
    ⟨second.elim le_of_lt fun up => up.1.ge, third.elim le_of_lt fun up => up.1.ge⟩
  obtain right | straight := (onward.1.trans beyond).lt_or_eq
  · exact Rising.trans (.inl right) second third left left'
  · have level : w.1 = 0 := by linarith [onward.2]
    rw [wedge, ← straight, level]
    linarith

/-- Straight up is to the left of every way that does not lead back. -/
theorem Rising.left_of_straight (rising : Rising w) (straight : w.1 ≤ 0) (onward : 0 ≤ u.1) :
    0 ≤ wedge u w := by
  obtain right | ⟨level, up⟩ := rising
  · exact absurd right straight.not_gt
  · rw [wedge, level, mul_zero, sub_zero]
    exact mul_nonneg onward up.le

namespace Forward

theorem add (first : Forward σ u) (second : Forward σ v) : Forward σ (u + v) := by
  rw [Forward, smul_add]
  exact Rising.add first second

variable (square : σ * σ = 1)
include square

theorem trans (first : Forward σ u) (second : Forward σ v) (third : Forward σ w)
    (left : 0 ≤ wedge u v) (left' : 0 ≤ wedge v w) : 0 ≤ wedge u w := by
  rw [← wedge_smul square] at left left' ⊢
  exact Rising.trans first second third left left'

theorem total (u : Way) : u = 0 ∨ Forward σ u ∨ Forward σ (-u) := by
  have unit : σ ≠ 0 := by
    rintro rfl
    norm_num at square
  simpa [Forward, unit] using Rising.total (σ • u)

theorem of_turn (forward : Forward σ u) (onward : 0 ≤ σ * v.1) (left : 0 < wedge u v) :
    Forward σ v := by
  rw [← wedge_smul square] at left
  exact Rising.of_turn forward onward left

theorem left_of_straight (forward : Forward σ w) (straight : σ * w.1 ≤ 0) (onward : 0 ≤ σ * u.1) :
    0 ≤ wedge u w := by
  rw [← wedge_smul square]
  exact Rising.left_of_straight forward straight onward

theorem trans_of_onward (second : Forward σ v) (third : Forward σ w)
    (beyond : σ * v.1 ≤ σ * u.1) (beyond' : σ * w.1 ≤ σ * u.1) (left : 0 ≤ wedge u v)
    (left' : 0 ≤ wedge v w) : 0 ≤ wedge u w := by
  rw [← wedge_smul square] at left left' ⊢
  exact Rising.trans_of_onward second third beyond beyond' left left'

end Forward

end Way

namespace Planar

open Way

def way (a b : Planar) : Way := (b.x.value - a.x.value, b.y.value - a.y.value)

/-- Twice the area of the triangle, positive if its last corner lies to the left of the way along the
first two. -/
def bend (o a p : Planar) : ℚ := wedge (way o a) (way o p)

variable {o a p q : Planar}

@[simp] theorem way_self (a : Planar) : way a a = 0 := by simp [way]

theorem way_add (o a p : Planar) : way o a + way a p = way o p := by
  simp [way]

theorem neg_way (o a : Planar) : -way o a = way a o := by
  simp [way]

theorem bend_eq (o a p : Planar) : bend o a p = wedge (way o a) (way a p) := by
  simp only [bend, wedge, way]
  ring

theorem bend_rotate (o a p : Planar) : bend a p o = bend o a p := by
  simp only [bend, wedge, way]
  ring

theorem bend_swap (o a p : Planar) : bend o p a = -bend o a p := wedge_swap _ _

theorem bend_last (o a : Planar) : bend o a a = 0 := by
  simp only [bend, wedge]
  ring

/-! ## Points on the grid -/

/-- The coordinates are whole numbers, small enough for turns to be computed without error. -/
structure Whole (p : Planar) (a b : ℤ) : Prop where
  x : p.x.Stands a
  y : p.y.Stands b
  xBound : |a| ≤ 2 ^ 20
  yBound : |b| ≤ 2 ^ 20

def OnGrid (p : Planar) : Prop := ∃ a b, Whole p a b

theorem abs_sub_le_of_whole {a b : ℤ} (first : |a| ≤ 2 ^ 20) (second : |b| ≤ 2 ^ 20) :
    |a - b| ≤ 2 ^ 21 :=
  (abs_sub a b).trans ((add_le_add first second).trans (by norm_num))

theorem abs_mul_le {α : Type} [CommRing α] [LinearOrder α] [IsStrictOrderedRing α] {a b m n : α}
    (first : |a| ≤ m) (second : |b| ≤ n) : |a * b| ≤ m * n := by
  rw [abs_mul]
  exact mul_le_mul first second (abs_nonneg b) ((abs_nonneg a).trans first)

theorem OnGrid.turn (o' : OnGrid o) (a' : OnGrid a) (p' : OnGrid p) :
    ∃ n : ℤ, ((a - o).turn (p - o)).Stands n ∧ bend o a p = n := by
  obtain ⟨ox, oy, o⟩ := o'
  obtain ⟨ax, ay, a⟩ := a'
  obtain ⟨px, py, p⟩ := p'
  have short {n : ℤ} (bounded : |n| ≤ 2 ^ 21 * 2 ^ 21) : |n| < 2 ^ 53 :=
    bounded.trans_lt (by norm_num)
  have way {m n : ℤ} (first : |m| ≤ 2 ^ 20) (second : |n| ≤ 2 ^ 20) : |m - n| < 2 ^ 53 :=
    (abs_sub_le_of_whole first second).trans_lt (by norm_num)
  have right := abs_mul_le (abs_sub_le_of_whole a.xBound o.xBound)
    (abs_sub_le_of_whole p.yBound o.yBound)
  have left := abs_mul_le (abs_sub_le_of_whole a.yBound o.yBound)
    (abs_sub_le_of_whole p.xBound o.xBound)
  have along := (a.x.sub o.x (way a.xBound o.xBound)).mul
    (p.y.sub o.y (way p.yBound o.yBound)) (short right)
  have across := (a.y.sub o.y (way a.yBound o.yBound)).mul
    (p.x.sub o.x (way p.xBound o.xBound)) (short left)
  refine ⟨_, along.sub across ?_, ?_⟩
  · exact (abs_sub _ _).trans_lt ((add_le_add right left).trans_lt (by norm_num))
  · simp only [bend, wedge, Planar.way, o.x.value, o.y.value, a.x.value, a.y.value, p.x.value,
      p.y.value]
    push_cast
    ring

/-- On the grid the program sees on which side a point lies. -/
theorem OnGrid.lt_turn (o' : OnGrid o) (a' : OnGrid a) (p' : OnGrid p) :
    Coordinate.zero.lt ((a - o).turn (p - o)) = true ↔ 0 < bend o a p := by
  obtain ⟨n, stands, exact⟩ := o'.turn a' p'
  rw [Coordinate.Stands.zero.lt stands, exact, Int.cast_pos]

theorem OnGrid.le_turn (o' : OnGrid o) (a' : OnGrid a) (p' : OnGrid p) :
    Coordinate.zero.le ((a - o).turn (p - o)) = true ↔ 0 ≤ bend o a p := by
  obtain ⟨n, stands, exact⟩ := o'.turn a' p'
  rw [Coordinate.Stands.zero.le stands, exact, Int.cast_nonneg_iff]

end Planar

end PaperFolding
