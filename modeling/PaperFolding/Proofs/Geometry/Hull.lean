import PaperFolding.Proofs.Geometry.Ordered

/-!
The hull of corners on the grid: both chains together turn strictly left all the way round, and every corner
lies inside or on the border.
-/

namespace PaperFolding

open Planar Way

/-- All points lie on one line. -/
def Straight (points : List Planar) : Prop :=
  ∀ a ∈ points, ∀ b ∈ points, ∀ c ∈ points, bend a b c = 0

namespace Way

variable {d e u v w : Way} {σ : ℚ}

theorem Rising.wedge_eq_zero (rising : Rising d) (first : wedge d u = 0) (second : wedge d v = 0) :
    wedge u v = 0 := by
  have along := wedge_along u d v
  rw [wedge_swap d u, first, second] at along
  simp only [neg_zero, zero_mul, add_zero] at along
  obtain right | ⟨-, up⟩ := rising
  · exact (mul_eq_zero.1 along.1).resolve_right right.ne'
  · exact (mul_eq_zero.1 along.2).resolve_right up.ne'

/-- Two ways of one slope that both rise have the same points to their left. -/
theorem Rising.wedge_nonpos (first : Rising d) (second : Rising e) (level : wedge d e = 0)
    (right : wedge e w ≤ 0) : wedge d w ≤ 0 := by
  have along := wedge_along d e w
  rw [level, zero_mul, zero_mul, zero_add, zero_add] at along
  have onward : 0 ≤ d.1 := first.elim le_of_lt fun up => up.1.ge
  obtain right' | ⟨straight, up⟩ := second
  · have : wedge d w * e.1 ≤ 0 := along.1 ▸ mul_nonpos_of_nonpos_of_nonneg right onward
    exact nonpos_of_mul_nonpos_left this right'
  · have level : d.1 = 0 := by
      rw [wedge, straight, mul_zero, sub_zero] at level
      exact (mul_eq_zero.1 level).resolve_right up.ne'
    have upward : 0 ≤ d.2 := first.elim (fun right => absurd level right.ne') fun up => up.2.le
    have : wedge d w * e.2 ≤ 0 := along.2 ▸ mul_nonpos_of_nonpos_of_nonneg right upward
    exact nonpos_of_mul_nonpos_left this up

end Way

namespace Outline

variable {σ : ℚ} {seen : List Planar} {x m y : Planar}

theorem straight_of_level {points : List Planar} {d : Way} (forward : Forward σ d)
    (level : ∀ s ∈ points, wedge d (way m s) = 0) : Straight points := by
  have levelled {a b : Planar} (known : a ∈ points) (known' : b ∈ points) :
      wedge (σ • d) (way a b) = 0 := by
    have first := level a known
    have second := level b known'
    simp only [wedge, way, Prod.smul_fst, Prod.smul_snd, smul_eq_mul] at first second ⊢
    linear_combination σ * second - σ * first
  intro a known b known' c known''
  exact Rising.wedge_eq_zero forward (levelled known known') (levelled known known'')

/-- Where two chains meet, the outline turns left, unless all corners lie on one line. -/
theorem turn_of_meeting (square : σ * σ = 1) (arrive : Edge σ seen m x) (leave : Edge (-σ) seen y m)
    (known : y ∈ seen) (bent : ¬ Straight seen) : 0 < bend x m y := by
  refine (arrive.support y known).lt_of_ne fun level => bent ?_
  refine straight_of_level (m := m) arrive.forward fun s known => ?_
  have left := arrive.support s known
  have right := leave.support s known
  rw [bend_eq] at level left
  refine le_antisymm ?_ left
  rw [← wedge_smul square]
  refine Rising.wedge_nonpos arrive.forward leave.forward ?_ ?_
  · simp only [wedge, Prod.smul_fst, Prod.smul_snd, smul_eq_mul] at level ⊢
    linear_combination (σ * σ) * level
  · rw [bend] at right
    simp only [wedge, Prod.smul_fst, Prod.smul_snd, smul_eq_mul] at right ⊢
    nlinarith

/-- An outline of two corners has all others on the line between them. -/
theorem straight_of_pair (arrive : Edge σ seen m x) (leave : Edge (-σ) seen x m) : Straight seen := by
  refine straight_of_level (m := m) arrive.forward fun s known => le_antisymm ?_ ?_
  · have left := leave.support s known
    simp only [bend, wedge, way] at left ⊢
    linarith
  · rw [← bend_eq]
    exact arrive.support s known

/-- A way along edges that turns left, as one of the two chains leaves it. -/
structure Half (σ : ℚ) (seen half : List Planar) : Prop where
  among : half ⊆ seen
  edges : half.IsChain fun o a => Edge σ seen a o
  turns : TurnsLeft half

theorem Course.half {first : Planar} {seen' built : List Planar}
    (course : Course σ first seen' built) (among : built ⊆ seen')
    (same : ∀ s, s ∈ seen ↔ s ∈ seen') : Half σ seen built.reverse where
  among s known := (same s).2 (among (List.mem_reverse.1 known))
  edges := List.isChain_reverse.2 (course.edges.imp fun _ _ edge =>
    ⟨edge.forward, fun s known => edge.support s ((same s).1 known)⟩)
  turns := Threes.reverse_iff.2 course.turns

/-- Where one half meets the other, the outline turns left. -/
theorem turn_of_halves (square : σ * σ = 1) {front rest : List Planar}
    (arrive : Half σ seen (front ++ [x, m])) (leave : Half (-σ) seen (m :: y :: rest))
    (bent : ¬ Straight seen) : 0 < bend x m y :=
  turn_of_meeting square (List.isChain_append_cons_cons.1 arrive.edges).2.1
    (List.isChain_cons_cons.1 leave.edges).1 (leave.among (by simp)) bent

theorem exists_middle {built : List Planar} {a b : Planar} (top : built.head? = some b)
    (begins : built.getLast? = some a) (apart : a ≠ b) :
    ∃ middle, built.reverse = a :: (middle ++ [b]) ∧ built.tail.reverse = a :: middle := by
  obtain ⟨row, rfl⟩ := List.head?_eq_some_iff.1 top
  obtain rfl | ⟨middle, c, rfl⟩ := row.eq_nil_or_concat'
  · exact absurd (by simpa using begins.symm) apart
  · rw [← List.cons_append, List.getLast?_concat, Option.some_inj] at begins
    subst begins
    exact ⟨middle.reverse, by simp, by simp⟩

/-- The hull goes along one half and back along the other. -/
theorem exists_halves {row : List Planar} (ranged : Ranged row) (some : 2 ≤ row.length) :
    ∃ first last there back, Half 1 row (first :: (there ++ [last])) ∧
      Half (-1) row (last :: (back ++ [first])) ∧
      (chain row).tail.reverse ++ (chain row.reverse).tail.reverse =
        first :: (there ++ last :: back) := by
  obtain ⟨first, later, rfl⟩ : ∃ first later, row = first :: later :=
    List.exists_cons_of_length_pos (by omega)
  obtain rfl | ⟨middle, last, rfl⟩ := later.eq_nil_or_concat'
  · simp at some
  have turned : (first :: (middle ++ [last])).reverse = last :: (middle.reverse ++ [first]) := by simp
  have rising := ranged.first _ _ rfl
  have falling : ∀ s ∈ (first :: middle), Rising (way s last) := ranged.last _ _ (by simp)
  have apart : first ≠ last := by
    rintro rfl
    exact (rising first (by simp)).ne_zero (way_self first)
  obtain ⟨lower, top⟩ := course_chain (σ := 1) (by norm_num) ranged.grid
    (by simpa using ranged.onward) (by simpa [Forward] using rising)
  have backward : (last :: (middle.reverse ++ [first])).Pairwise
      fun s q => 0 ≤ (-1 : ℚ) * (way s q).1 := by
    rw [← turned, List.pairwise_reverse]
    refine ranged.onward.imp fun onward => ?_
    rwa [← neg_way, Prod.fst_neg, neg_one_mul, neg_neg]
  obtain ⟨upper, bottom⟩ := course_chain (σ := -1) (by norm_num)
    (fun s known => ranged.grid s (by simp at known ⊢; tauto)) backward fun s known => by
      rw [Forward, neg_one_smul, neg_way]
      exact falling s (by simp at known ⊢; tauto)
  rw [← turned] at upper bottom
  have last? : (first :: (middle ++ [last])).getLast? = Option.some last := by
    rw [← List.cons_append, List.getLast?_concat]
  obtain ⟨there, path, along⟩ := exists_middle (top.trans last?) lower.begins apart
  obtain ⟨back, path', along'⟩ := exists_middle (bottom.trans List.getLast?_reverse) upper.begins apart.symm
  refine ⟨first, last, there, back, ?_, ?_, ?_⟩
  · rw [← path]
    exact lower.half (chain_subset _) fun s => Iff.rfl
  · rw [← path']
    exact upper.half (chain_subset _) fun s => List.mem_reverse.symm
  · rw [along, along']
    simp

section Closed

variable {row there back : List Planar} {first last : Planar}
  (lower : Half 1 row (first :: (there ++ [last]))) (upper : Half (-1) row (last :: (back ++ [first])))
include lower upper

/-- All the way round, no corner lies to the right of an edge. -/
theorem support_closed :
    (first :: (there ++ last :: (back ++ [first]))).IsChain fun a b => ∀ s ∈ row, 0 ≤ bend a b s := by
  have forth := lower.edges.imp fun _ _ edge => edge.support
  have round := upper.edges.imp fun _ _ edge => edge.support
  have forth : ((first :: there) ++ [last]).IsChain fun a b => ∀ s ∈ row, 0 ≤ bend a b s := by
    simpa using forth
  have round : ([last] ++ (back ++ [first])).IsChain fun a b => ∀ s ∈ row, 0 ≤ bend a b s := by
    simpa using round
  simpa using forth.append_overlap round (by simp)

theorem three_le_of_bent (bent : ¬ Straight row) :
    3 ≤ (first :: (there ++ last :: back)).length := by
  by_contra short
  obtain ⟨rfl, rfl⟩ : there = [] ∧ back = [] := by
    simp only [List.length_cons, List.length_append] at short
    exact ⟨List.eq_nil_of_length_eq_zero (by omega), List.eq_nil_of_length_eq_zero (by omega)⟩
  exact bent (straight_of_pair (List.isChain_cons_cons.1 lower.edges).1
    (List.isChain_cons_cons.1 upper.edges).1)

/-- All the way round, the outline turns left at each of its corners. -/
theorem turns_closed (bent : ¬ Straight row) :
    TurnsLeft (first :: (there ++ last :: back) ++ (first :: (there ++ last :: back)).take 2) := by
  obtain ⟨X, x, front⟩ : ∃ X x, first :: there = X ++ [x] :=
    (List.eq_nil_or_concat' _).resolve_left (List.cons_ne_nil _ _)
  obtain ⟨Z, z, closing⟩ : ∃ Z z, last :: back = Z ++ [z] :=
    (List.eq_nil_or_concat' _).resolve_left (List.cons_ne_nil _ _)
  obtain ⟨y, Y, behind⟩ : ∃ y Y, back ++ [first] = y :: Y :=
    List.exists_cons_of_ne_nil (by simp)
  obtain ⟨w, W, ahead⟩ : ∃ w W, there ++ [last] = w :: W :=
    List.exists_cons_of_ne_nil (by simp)
  have forth : first :: (there ++ [last]) = X ++ [x, last] := by
    rw [← List.cons_append, front]
    simp
  have round : last :: (back ++ [first]) = Z ++ [z, first] := by
    rw [← List.cons_append, closing]
    simp
  have arrive : Half 1 row (X ++ [x, last]) := forth ▸ lower
  have leave : Half (-1) row (last :: y :: Y) := behind ▸ upper
  have arrive' : Half (-1) row (Z ++ [z, first]) := round ▸ upper
  have leave' : Half (- -1) row (first :: w :: W) := by rwa [neg_neg, ← ahead]
  have turn := turn_of_halves (one_mul 1) arrive leave bent
  have turn' := turn_of_halves (by norm_num) arrive' leave' bent
  have path : TurnsLeft (X ++ x :: last :: y :: Y) :=
    arrive.turns.append (Threes.cons_cons_iff.2 ⟨by simpa using turn, leave.turns⟩)
  have same : X ++ x :: last :: y :: Y = first :: (there ++ Z) ++ [z, first] := by
    calc X ++ x :: last :: y :: Y = (X ++ [x]) ++ last :: (y :: Y) := by simp
      _ = (first :: there) ++ (Z ++ [z, first]) := by rw [← front, ← behind, round]
      _ = first :: (there ++ Z) ++ [z, first] := by simp
  rw [same] at path
  have corner : TurnsLeft (z :: first :: [w]) :=
    Threes.cons_cons_iff.2 ⟨by simpa using turn', .pair⟩
  have closed := path.append corner
  have outline : first :: (there ++ last :: back) = first :: w :: (W ++ back) := by
    rw [List.append_cons, ahead, List.cons_append]
  have two : (first :: (there ++ last :: back)).take 2 = [first, w] := by
    rw [outline]
    rfl
  rw [two, closing]
  simpa [TurnsLeft] using closed

end Closed

end Outline

end PaperFolding
