import PaperFolding.Proofs.Geometry.Hull

/-!
The area of a closed outline on the grid. Along a half of the outline the partial sums stay small, so the area
is computed without error.
-/

namespace PaperFolding

open Planar Way

namespace Planar

variable {a b : Planar}

/-- Twice the area of the triangle with the origin. -/
def cross (a b : Planar) : ℚ := a.x.value * b.y.value - a.y.value * b.x.value

theorem cross_eq (o a b : Planar) : cross a b = bend o a b + (cross o b - cross o a) := by
  simp only [cross, bend, wedge, way]
  ring

/-- The triangle as the trapezoid below its side, and what is left over at the ends. -/
theorem cross_eq_trapezoid (a b : Planar) : cross a b =
    (a.x.value - b.x.value) * (a.y.value + b.y.value) +
      (b.x.value * b.y.value - a.x.value * a.y.value) := by
  rw [cross]
  ring

theorem OnGrid.bounds (grid : OnGrid a) : |a.x.value| ≤ 2 ^ 20 ∧ |a.y.value| ≤ 2 ^ 20 := by
  obtain ⟨m, n, whole⟩ := grid
  rw [whole.x.value, whole.y.value]
  exact ⟨by exact_mod_cast whole.xBound, by exact_mod_cast whole.yBound⟩

theorem OnGrid.cross (grid : OnGrid a) (grid' : OnGrid b) :
    ∃ m : ℤ, (a.turn b).Stands m ∧ cross a b = m := by
  obtain ⟨ax, ay, a⟩ := grid
  obtain ⟨bx, by', b⟩ := grid'
  have short {n : ℤ} (bounded : |n| ≤ 2 ^ 20 * 2 ^ 20) : |n| < 2 ^ 53 :=
    bounded.trans_lt (by norm_num)
  have along := abs_mul_le a.xBound b.yBound
  have across := abs_mul_le a.yBound b.xBound
  refine ⟨_, (a.x.mul b.y (short along)).sub (a.y.mul b.x (short across)) ?_, ?_⟩
  · exact (abs_sub _ _).trans_lt ((add_le_add along across).trans_lt (by norm_num))
  · rw [Planar.cross, a.x.value, a.y.value, b.x.value, b.y.value]
    push_cast
    rfl

end Planar

namespace Outline

/-- The edges along a way. -/
def links : List Planar → List (Planar × Planar)
  | a :: b :: path => (a, b) :: links (b :: path)
  | _ => []

theorem zip_eq_links (a c : Planar) (path : List Planar) :
    (a :: path).zip (path ++ [c]) = links (a :: (path ++ [c])) := by
  induction path generalizing a with
  | nil => rfl
  | cons b path induction => exact congrArg ((a, b) :: ·) (induction b)

theorem edges_eq_links (first : Planar) (path : List Planar) :
    edges (first :: path) = links (first :: (path ++ [first])) := zip_eq_links first first path

theorem forall_links {R : Planar → Planar → Prop} {path : List Planar} (chain : path.IsChain R) :
    ∀ e ∈ links path, R e.1 e.2 := by
  induction path with
  | nil => simp [links]
  | cons a path induction =>
      cases path with
      | nil => simp [links]
      | cons b path =>
          obtain ⟨begins, chain⟩ := List.isChain_cons_cons.1 chain
          exact List.forall_mem_cons.2 ⟨begins, induction chain⟩

theorem links_append (front back : List Planar) (m : Planar) :
    links (front ++ m :: back) = links (front ++ [m]) ++ links (m :: back) := by
  induction front with
  | nil => rfl
  | cons a front induction =>
      cases front with
      | nil => rfl
      | cons b front => exact congrArg ((a, b) :: ·) induction

theorem abs_eq_of_onward {σ t : ℚ} (square : σ * σ = 1) (onward : 0 ≤ σ * t) : |t| = σ * t := by
  obtain rfl | rfl := mul_self_eq_one_iff.1 square
  · rw [one_mul] at onward ⊢
    exact abs_of_nonneg onward
  · rw [neg_one_mul] at onward ⊢
    rw [← abs_neg]
    exact abs_of_nonneg onward

theorem le_of_abs_le {σ t bound : ℚ} (square : σ * σ = 1) (bounded : |t| ≤ bound) : σ * t ≤ bound := by
  obtain rfl | rfl := mul_self_eq_one_iff.1 square
  · rw [one_mul]
    exact (le_abs_self t).trans bounded
  · rw [neg_one_mul]
    exact (neg_le_abs t).trans bounded

def tally (path : List Planar) : ℚ := ((links path).map fun e => cross e.1 e.2).sum

/-- A partial sum that has come to the point `a` has room for the abscissas that may still be travelled. -/
def Roomy (σ f room : ℚ) (n : ℤ) (a : Planar) : Prop :=
  |n - a.x.value * a.y.value + f| + 2 ^ 21 * (2 ^ 20 - σ * a.x.value) ≤ room

namespace Roomy

variable {σ f room : ℚ} {n : ℤ} {a b : Planar}

/-- An edge adds no more than its height times the abscissa that it travels. -/
theorem step (square : σ * σ = 1) (grid : OnGrid a) (grid' : OnGrid b)
    (onward : 0 ≤ σ * (way a b).1) {m : ℤ} (exact : cross a b = m) (roomy : Roomy σ f room n a) :
    Roomy σ f room (n + m) b := by
  have moved : ((n + m : ℤ) : ℚ) - b.x.value * b.y.value + f =
      (n - a.x.value * a.y.value + f) + (a.x.value - b.x.value) * (a.y.value + b.y.value) := by
    rw [Int.cast_add, ← exact, cross_eq_trapezoid]
    ring
  have travelled : |a.x.value - b.x.value| = σ * (way a b).1 := by
    rw [abs_sub_comm]
    exact abs_eq_of_onward square onward
  have height : |a.y.value + b.y.value| ≤ 2 ^ 21 :=
    (abs_add_le _ _).trans ((add_le_add grid.bounds.2 grid'.bounds.2).trans (by norm_num))
  have added := abs_mul_le travelled.le height
  have grown := abs_add_le (n - a.x.value * a.y.value + f)
    ((a.x.value - b.x.value) * (a.y.value + b.y.value))
  unfold Roomy at roomy ⊢
  rw [moved]
  simp only [way] at added
  linarith

/-- A sum with room is small enough to be kept without error. -/
theorem short (square : σ * σ = 1) (offset : |f| ≤ 2 ^ 40) (bounded : room ≤ 2 ^ 44)
    (grid : OnGrid a) (roomy : Roomy σ f room n a) : |n| < 2 ^ 53 := by
  have corner := abs_mul_le grid.bounds.1 grid.bounds.2
  have left := le_of_abs_le square grid.bounds.1
  have parts := abs_sub ((n : ℚ) - a.x.value * a.y.value + f) (f - a.x.value * a.y.value)
  have offset' := abs_sub f (a.x.value * a.y.value)
  rw [show (n : ℚ) - a.x.value * a.y.value + f - (f - a.x.value * a.y.value) = n by ring] at parts
  have small : |(n : ℚ)| < 2 ^ 53 := by
    unfold Roomy at roomy
    norm_num at *
    linarith
  exact_mod_cast small

theorem start (grid : OnGrid a) : Roomy 1 (a.x.value * a.y.value) (2 ^ 42) 0 a := by
  have left := neg_le_of_abs_le grid.bounds.1
  unfold Roomy
  rw [Int.cast_zero, zero_sub, neg_add_cancel, abs_zero]
  linarith

/-- Where the outline turns back there is room for the way back. -/
theorem back (grid : OnGrid a) (roomy : Roomy 1 f (2 ^ 42) n a) : Roomy (-1) f (2 ^ 43) n a := by
  have right := le_of_abs_le (one_mul 1) grid.bounds.1
  unfold Roomy at roomy ⊢
  linarith

end Roomy

/-- Along a half of the outline the sum has room, so it is computed without error. -/
theorem stands_along {σ : ℚ} (square : σ * σ = 1) {f room : ℚ} (offset : |f| ≤ 2 ^ 40)
    (bounded : room ≤ 2 ^ 44) {path : List Planar} {a z : Planar} {sum : Coordinate} {n : ℤ}
    (grid : ∀ s ∈ a :: path, OnGrid s)
    (onward : (a :: path).IsChain fun a b => 0 ≤ σ * (way a b).1) (stands : sum.Stands n)
    (roomy : Roomy σ f room n a) (ends : (a :: path).getLast? = some z) :
    ∃ n' : ℤ, ((links (a :: path)).foldl (fun sum e => sum + e.1.turn e.2) sum).Stands n' ∧
      n' = n + tally (a :: path) ∧ Roomy σ f room n' z := by
  induction path generalizing a sum n with
  | nil =>
      obtain rfl : a = z := by simpa using ends
      exact ⟨n, stands, by simp [tally, links], roomy⟩
  | cons b path induction =>
      obtain ⟨gridA, gridB⟩ : OnGrid a ∧ OnGrid b := ⟨grid a (by simp), grid b (by simp)⟩
      obtain ⟨m, turn, exact⟩ := gridA.cross gridB
      obtain ⟨step, onward⟩ := List.isChain_cons_cons.1 onward
      have roomy' := roomy.step square gridA gridB step exact
      obtain ⟨n', found, total, within⟩ := induction (fun s known => grid s (by simp [known])) onward
        (stands.add turn (roomy'.short square offset bounded gridB)) roomy' (by simpa using ends)
      refine ⟨n', found, ?_, within⟩
      rw [total, tally, tally, links, List.map_cons, List.sum_cons, exact]
      push_cast
      ring

theorem tally_eq (o : Planar) {path : List Planar} {a z : Planar}
    (ends : (a :: path).getLast? = some z) :
    tally (a :: path) = ((links (a :: path)).map fun e => bend o e.1 e.2).sum +
      (cross o z - cross o a) := by
  induction path generalizing a with
  | nil =>
      obtain rfl : a = z := by simpa using ends
      simp [tally, links]
  | cons b path induction =>
      have rest := induction (a := b) (by simpa using ends)
      rw [tally] at rest ⊢
      rw [links, List.map_cons, List.sum_cons, rest, List.map_cons, List.sum_cons,
        cross_eq o a b]
      ring

theorem edges_closed (first last : Planar) (there back : List Planar) :
    edges (first :: (there ++ last :: back)) =
      links (first :: (there ++ [last])) ++ links (last :: (back ++ [first])) := by
  rw [edges_eq_links, List.append_assoc, ← List.cons_append]
  exact links_append (first :: there) (back ++ [first]) last

section Closed

variable {row there back : List Planar} {first last : Planar} (grid : ∀ s ∈ row, OnGrid s)
  (lower : Half 1 row (first :: (there ++ [last]))) (upper : Half (-1) row (last :: (back ++ [first])))
include grid lower upper

/-- The area is computed without error, as the sum over the triangles with the first corner. -/
theorem stands_twiceArea : ∃ n : ℤ, (twiceArea (first :: (there ++ last :: back))).Stands n ∧
    |n| < 2 ^ 53 ∧
      n = ((edges (first :: (there ++ last :: back))).map fun e => bend first e.1 e.2).sum := by
  have gridA := grid first (lower.among (by simp))
  have gridZ := grid last (upper.among (by simp))
  have offset : |first.x.value * first.y.value| ≤ 2 ^ 40 :=
    (abs_mul_le gridA.bounds.1 gridA.bounds.2).trans (by norm_num)
  have ends : (first :: (there ++ [last])).getLast? = some last := by
    rw [← List.cons_append, List.getLast?_concat]
  have ends' : (last :: (back ++ [first])).getLast? = some first := by
    rw [← List.cons_append, List.getLast?_concat]
  have onwardOf {σ : ℚ} {half : List Planar} (path : Half σ row half) :
      half.IsChain fun a b => 0 ≤ σ * (way a b).1 :=
    path.edges.imp fun _ _ edge => edge.forward.elim le_of_lt fun up => up.1.ge
  have most : ((2 : ℚ) ^ 42 ≤ 2 ^ 44) ∧ (2 : ℚ) ^ 43 ≤ 2 ^ 44 := by norm_num
  obtain ⟨n, forth, total, roomy⟩ := stands_along (one_mul 1) offset most.1
    (fun s known => grid s (lower.among known)) (onwardOf lower) Coordinate.Stands.zero
    (.start gridA) ends
  obtain ⟨n', round, total', roomy'⟩ := stands_along (σ := -1) (by norm_num) offset most.2
    (fun s known => grid s (upper.among known)) (onwardOf upper) forth (roomy.back gridZ) ends'
  refine ⟨n', ?_, roomy'.short (by norm_num) offset most.2 gridA, ?_⟩
  · rw [twiceArea, edges_closed, List.foldl_append]
    exact round
  · rw [edges_closed, List.map_append, List.sum_append, total', total,
      tally_eq first ends, tally_eq first ends']
    push_cast
    ring

end Closed

end Outline

end PaperFolding
