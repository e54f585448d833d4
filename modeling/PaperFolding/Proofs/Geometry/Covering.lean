import PaperFolding.Proofs.Geometry.Area

/-!
A sheet that is made of corners on the grid covers them all, and one can be made unless they lie on one line.
-/

namespace PaperFolding

open Planar Way

namespace Outline

variable {row there back : List Planar} {first last : Planar}

theorem enclosesArea_iff_of_stands {outline : Outline} {n : ℤ} (stands : outline.twiceArea.Stands n)
    (short : |n| < 2 ^ 53) : outline.enclosesArea = true ↔ 3 ≤ outline.length ∧ n ≠ 0 := by
  have half := stands.abs.half_same_zero (by rwa [abs_abs])
  rw [enclosesArea, Bool.and_eq_true, decide_eq_true_iff, Bool.not_eq_true', ← Bool.not_eq_true,
    area, half, abs_eq_zero]

theorem encloses_of_bent (grid : ∀ s ∈ row, OnGrid s)
    (lower : Half 1 row (first :: (there ++ [last]))) (upper : Half (-1) row (last :: (back ++ [first])))
    (bent : ¬ Straight row) : enclosesArea (first :: (there ++ last :: back)) = true := by
  obtain ⟨n, stands, short, exact⟩ := stands_twiceArea grid lower upper
  have three := three_le_of_bent lower upper bent
  refine (enclosesArea_iff_of_stands stands short).2 ⟨three, ?_⟩
  have support := support_closed lower upper
  have turns := turns_closed lower upper bent
  have around : ∀ e ∈ edges (first :: (there ++ last :: back)), 0 ≤ bend first e.1 e.2 := by
    intro e known
    rw [edges_eq_links, List.append_assoc] at known
    rw [← bend_rotate]
    exact forall_links support e known first (lower.among (by simp))
  rintro rfl
  obtain ⟨w, w', rest, split⟩ : ∃ w w' rest, there ++ last :: back = w :: w' :: rest := by
    match there ++ last :: back, three with
    | w :: w' :: rest, _ => exact ⟨w, w', rest, rfl⟩
  rw [split] at turns exact around
  have left : 0 < bend first w w' := turns first w w' ⟨[], _, rfl⟩
  have found : (w, w') ∈ edges (first :: w :: w' :: rest) := by
    simp [edges_eq_links, links]
  have least := List.single_le_sum (fun x known => by
    obtain ⟨e, found, rfl⟩ := List.mem_map.1 known
    exact around e found) _ (List.mem_map_of_mem (f := fun e => bend first e.1 e.2) found)
  rw [← exact, Int.cast_zero] at least
  exact least.not_gt left

theorem ends_of_mem_edges {outline : Outline} {e : Planar × Planar} (known : e ∈ outline.edges) :
    e.1 ∈ outline ∧ e.2 ∈ outline := by
  obtain ⟨start, stop⟩ := List.of_mem_zip known
  refine ⟨start, ?_⟩
  obtain behind | again := List.mem_append.1 stop
  · exact List.mem_of_mem_tail behind
  · exact List.mem_of_mem_take again

theorem closed_among (lower : Half 1 row (first :: (there ++ [last])))
    (upper : Half (-1) row (last :: (back ++ [first]))) :
    first :: (there ++ last :: back) ⊆ row := by
  intro s known
  have known : s ∈ first :: (there ++ [last]) ∨ s ∈ last :: (back ++ [first]) := by
    simp at known ⊢
    tauto
  exact known.elim (lower.among ·) (upper.among ·)

theorem not_encloses_of_straight (grid : ∀ s ∈ row, OnGrid s)
    (lower : Half 1 row (first :: (there ++ [last]))) (upper : Half (-1) row (last :: (back ++ [first])))
    (straight : Straight row) : enclosesArea (first :: (there ++ last :: back)) ≠ true := by
  obtain ⟨n, stands, short, exact⟩ := stands_twiceArea grid lower upper
  rw [ne_eq, enclosesArea_iff_of_stands stands short]
  rintro ⟨-, some⟩
  have among := closed_among lower upper
  have none : ∀ x ∈ (edges (first :: (there ++ last :: back))).map fun e => bend first e.1 e.2,
      x = 0 := by
    intro x known
    obtain ⟨e, found, rfl⟩ := List.mem_map.1 known
    obtain ⟨start, stop⟩ := ends_of_mem_edges found
    exact straight first (among (by simp)) e.1 (among start) e.2 (among stop)
  rw [List.sum_eq_zero none] at exact
  exact some (by exact_mod_cast exact)

theorem straight_of_few (few : row.length < 3) : Straight row := by
  have pair {a b c : Planar} (again : c = a ∨ c = b ∨ a = b) : bend a b c = 0 := by
    obtain rfl | rfl | rfl := again <;> simp only [bend, wedge, way] <;> ring
  intro a known b known' c known''
  refine pair ?_
  cases row with
  | nil => cases known
  | cons p rest =>
      cases rest with
      | nil =>
          simp only [List.mem_singleton] at known known' known''
          exact .inl (known''.trans known.symm)
      | cons q rest =>
          obtain rfl : rest = [] := by
            simp only [List.length_cons] at few
            exact List.length_eq_zero_iff.1 (by omega)
          simp only [List.mem_cons, List.not_mem_nil, or_false] at known known' known''
          grind

/-- An outline goes round corners: it turns left at each of them, and has none to the right of an edge. -/
structure Surrounds (outline : Outline) (row : List Planar) : Prop where
  among : outline ⊆ row
  three : 3 ≤ outline.length
  turns : TurnsLeft (outline ++ outline.take 2)
  support : ∀ e ∈ outline.edges, ∀ s ∈ row, 0 ≤ bend e.1 e.2 s

theorem hull_surrounds {corners : List Planar} (ranged : Ranged (distinct (sort corners))) :
    ((hull corners).enclosesArea = true ↔ ¬ Straight (distinct (sort corners))) ∧
      ((hull corners).enclosesArea = true → Surrounds (hull corners) (distinct (sort corners))) := by
  rw [hull]
  split
  · rename_i few
    have narrow : enclosesArea (distinct (sort corners)) ≠ true := by
      intro encloses
      rw [enclosesArea, Bool.and_eq_true, decide_eq_true_iff] at encloses
      omega
    exact ⟨⟨fun encloses => absurd encloses narrow, fun bent => absurd (straight_of_few few) bent⟩,
      fun encloses => absurd encloses narrow⟩
  · rename_i many
    obtain ⟨first, last, there, back, lower, upper, hull⟩ := exists_halves ranged (by omega)
    rw [hull]
    have encloses : enclosesArea (first :: (there ++ last :: back)) = true ↔
        ¬ Straight (distinct (sort corners)) :=
      ⟨fun encloses straight => not_encloses_of_straight ranged.grid lower upper straight encloses,
        encloses_of_bent ranged.grid lower upper⟩
    refine ⟨encloses, fun enclosing => ?_⟩
    have bent := encloses.1 enclosing
    refine ⟨closed_among lower upper, three_le_of_bent lower upper bent,
      turns_closed lower upper bent, fun e known => ?_⟩
    rw [edges_eq_links, List.append_assoc] at known
    exact forall_links (support_closed lower upper) e known

end Outline

variable {corners : List Planar}

theorem bend_congr {a b c d : Planar} (still : way d c = 0) : bend a b c = bend a b d := by
  rw [bend, bend, ← way_add a d c, still, add_zero]

theorem holds_of_surrounds {outline : Outline} {row : List Planar} (surrounds : Outline.Surrounds outline row)
    (grid : ∀ s ∈ row, OnGrid s) {c d : Planar} (grid' : OnGrid c) (known : d ∈ row)
    (still : way d c = 0) : outline.holds c = true := by
  rw [Outline.holds, List.all_eq_true]
  rintro ⟨a, b⟩ edge
  obtain ⟨start, stop⟩ := Outline.ends_of_mem_edges edge
  rw [(grid a (surrounds.among start)).le_turn (grid b (surrounds.among stop)) grid', bend_congr still]
  exact surrounds.support _ edge d known

theorem straight_of_kept {row : List Planar} (kept : ∀ c ∈ corners, ∃ d ∈ row, way d c = 0)
    (straight : Straight row) : Straight corners := by
  intro a known b known' c known''
  obtain ⟨a', kept₁, still⟩ := kept a known
  obtain ⟨b', kept₂, still'⟩ := kept b known'
  obtain ⟨c', kept₃, still''⟩ := kept c known''
  rw [bend_congr still'', ← bend_rotate, bend_congr still, ← bend_rotate, bend_congr still']
  exact straight c' kept₃ a' kept₁ b' kept₂

namespace Engine

/-- Corners on the grid give a sheet unless they lie on one line. The outline of the sheet leads along
corners that were given, turns left at each of them, and has every corner inside or on the border; all this
as long as the zeros are in order. -/
theorem fromCorners_covers
    (whole : ∀ c ∈ corners, c.x.WholeWithin (2 ^ 20) ∧ c.y.WholeWithin (2 ^ 20))
    (zeros : Outline.ZerosOrdered corners) :
    (∀ ledger, plain.fromCorners corners = .ok ledger →
      (∀ corner ∈ ledger.outline, corner ∈ corners) ∧
      3 ≤ ledger.outline.length ∧ TurnsLeft (ledger.outline ++ ledger.outline.take 2) ∧
      ∀ corner ∈ corners, plain.regionAt ledger corner = .ok 0) ∧
    ∀ cause, plain.fromCorners corners = .error cause → Straight corners := by
  have grid : ∀ c ∈ corners, OnGrid c := fun c known =>
    onGrid_of_wholeWithin (whole c known).1 (whole c known).2
  have ranged := Outline.ranged grid zeros
  obtain ⟨encloses, surrounds⟩ := Outline.hull_surrounds ranged
  constructor
  · intro ledger made
    cases found : Ledger.ofCorners? corners with
    | none => simp [plain, found] at made
    | some sheet =>
        obtain rfl : sheet = ledger := by simpa [plain, found] using made
        obtain ⟨enclosing, rfl⟩ := Ledger.ofCorners?_eq_some.1 found
        have surrounds := surrounds enclosing
        refine ⟨Outline.hull_subset corners, surrounds.three, surrounds.turns, fun c known => ?_⟩
        obtain ⟨d, kept, still⟩ := Outline.exists_kept grid known
        exact if_pos (holds_of_surrounds surrounds ranged.grid (grid c known) kept still)
  · intro cause refused
    refine straight_of_kept (fun c known => Outline.exists_kept grid known) (by_contra fun bent => ?_)
    have built := Ledger.ofCorners?_eq_some.2 ⟨encloses.2 bent, rfl⟩
    simp [plain, built] at refused

/-- A sheet whose left side stands at zeros of both signs. -/
theorem fromCorners_covers_triangle :
    let zero := Coordinate.ofNat 0
    let four := Coordinate.ofNat 4
    let corners : List Planar := [⟨four, zero⟩, ⟨zero, four⟩, ⟨zero.negate, zero⟩, ⟨zero, zero.negate⟩]
    (∀ c ∈ corners, c.x.WholeWithin (2 ^ 20) ∧ c.y.WholeWithin (2 ^ 20)) ∧
      Outline.ZerosOrdered corners ∧
      plain.fromCorners corners =
        .ok (.blank [⟨zero.negate, zero⟩, ⟨four, zero⟩, ⟨zero, four⟩]) ∧
      (∀ ledger, plain.fromCorners corners = .ok ledger →
        (∀ corner ∈ ledger.outline, corner ∈ corners) ∧
        3 ≤ ledger.outline.length ∧ TurnsLeft (ledger.outline ++ ledger.outline.take 2) ∧
        ∀ corner ∈ corners, plain.regionAt ledger corner = .ok 0) ∧
      ∀ cause, plain.fromCorners corners = .error cause → Straight corners := by
  intro zero four corners
  have none : zero.WholeWithin (2 ^ 20) := ⟨0, by decide, .inl rfl⟩
  have none' : zero.negate.WholeWithin (2 ^ 20) := ⟨0, by decide, .inr rfl⟩
  have some : four.WholeWithin (2 ^ 20) := ⟨4, by decide, .inl rfl⟩
  have whole : ∀ c ∈ corners, c.x.WholeWithin (2 ^ 20) ∧ c.y.WholeWithin (2 ^ 20) := by
    simp only [corners, List.forall_mem_cons]
    exact ⟨⟨some, none⟩, ⟨none, some⟩, ⟨none', none⟩, ⟨none, none'⟩, by simp⟩
  have zeros : Outline.ZerosOrdered corners := by
    unfold Outline.ZerosOrdered
    decide +kernel
  exact ⟨whole, zeros, by decide +kernel, fromCorners_covers whole zeros⟩

/-- Corners that do not lie on one line and are refused, since the middle one of a side comes last; and a
sheet without a corner that it was made of. -/
theorem misplaced_zeros_lose_corners :
    let zero := Coordinate.ofNat 0
    let one := Coordinate.ofNat 1
    let refused : List Planar :=
      [⟨one.negate, zero⟩, ⟨zero.negate, zero⟩, ⟨zero.negate, one⟩, ⟨zero, zero⟩]
    let built : List Planar :=
      [⟨zero.negate, .ofNat 5⟩, ⟨zero.negate, .ofNat 7⟩, ⟨zero, .ofNat 3⟩, ⟨zero, .ofNat 5⟩,
        ⟨.ofNat 10, .ofNat 4⟩]
    plain.fromCorners refused = .error (.noArea 4) ∧ ¬ Straight refused ∧
      ∃ ledger, plain.fromCorners built = .ok ledger ∧
        plain.regionAt ledger ⟨zero, .ofNat 3⟩ = .error (.nowhere ⟨zero, .ofNat 3⟩) := by
  intro zero one refused built
  refine ⟨by decide +kernel, fun straight => ?_, ?_⟩
  · have level := straight ⟨one.negate, zero⟩ (by simp [refused]) ⟨zero.negate, zero⟩
      (by simp [refused]) ⟨zero.negate, one⟩ (by simp [refused])
    have none : zero.Stands 0 := .ofNat (by decide)
    have unit : one.Stands 1 := .ofNat (by decide)
    simp [bend, wedge, way, none.value, none.negate.value, unit.value, unit.negate.value] at level
  · exact ⟨.blank [⟨zero.negate, .ofNat 5⟩, ⟨.ofNat 10, .ofNat 4⟩, ⟨zero.negate, .ofNat 7⟩],
      by decide +kernel, by decide +kernel⟩

end Engine

end PaperFolding
