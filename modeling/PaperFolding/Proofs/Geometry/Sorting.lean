import PaperFolding.Engine
import PaperFolding.Proofs.Coordinate.Order

/-!
The corners of a sheet are sorted by their bits, which is a total order: the order in which they were given
leaves no trace. The hull is put together from the sorted corners and makes up none.
-/

namespace PaperFolding

namespace Outline

variable {a b c p : Planar} {corners reordered : List Planar}

theorem before_iff : before a b = true ↔
    a.x.rank < b.x.rank ∨ a.x.rank = b.x.rank ∧ a.y.rank ≤ b.y.rank := by
  simp [before]

instance : Std.Total fun a b => before a b = true where
  total a b := by
    simp only [before_iff]
    omega

instance : IsTrans Planar fun a b => before a b = true where
  trans a b c := by
    simp only [before_iff]
    omega

theorem before_antisymm (forth : before a b = true) (back : before b a = true) : a = b := by
  rw [before_iff] at forth back
  have sameX : a.x = b.x := Coordinate.rank_injective (by omega)
  have sameY : a.y = b.y := Coordinate.rank_injective (by omega)
  cases a
  cases b
  exact congrArg₂ Planar.mk sameX sameY

theorem insert_eq (p : Planar) (corners : List Planar) :
    insert p corners = corners.orderedInsert (fun a b => before a b = true) p := by
  induction corners with
  | nil => rfl
  | cons q corners induction => rw [insert, List.orderedInsert_cons, induction]

theorem sort_eq (corners : List Planar) :
    sort corners = corners.insertionSort fun a b => before a b = true := by
  induction corners with
  | nil => rfl
  | cons p corners induction =>
      rw [List.insertionSort_cons, ← induction, ← insert_eq]
      rfl

theorem sort_perm (corners : List Planar) : (sort corners).Perm corners :=
  sort_eq corners ▸ List.perm_insertionSort _ _

theorem sort_ordered (corners : List Planar) :
    (sort corners).Pairwise fun a b => before a b = true :=
  sort_eq corners ▸ List.pairwise_insertionSort _ _

/-- Sorting forgets in which order the corners came. -/
theorem sort_eq_of_perm (reorders : corners.Perm reordered) : sort corners = sort reordered :=
  List.Perm.eq_of_pairwise (fun _ _ _ _ => before_antisymm) (sort_ordered _) (sort_ordered _)
    (((sort_perm corners).trans reorders).trans (sort_perm reordered).symm)

theorem distinctAfter_sublist (last : Planar) (corners : List Planar) :
    (distinctAfter last corners).Sublist corners := by
  induction corners generalizing last with
  | nil => exact .slnil
  | cons p corners induction =>
      rw [distinctAfter]
      split
      · exact (induction last).cons p
      · exact (induction p).cons_cons p

theorem distinct_sublist : ∀ corners : List Planar, (distinct corners).Sublist corners
  | [] => .slnil
  | p :: corners => (distinctAfter_sublist p corners).cons_cons p

theorem settle_cons_cons (p a o : Planar) (rest : List Planar) :
    settle p (a :: o :: rest) =
      if Coordinate.zero.lt ((a - o).turn (p - o)) then a :: o :: rest
      else settle p (o :: rest) := rfl

theorem settle_suffix (p : Planar) : ∀ built : List Planar, settle p built <:+ built
  | [] => List.suffix_rfl
  | [_] => List.suffix_rfl
  | a :: o :: rest => by
      rw [settle_cons_cons]
      split
      · exact List.suffix_rfl
      · exact (settle_suffix p (o :: rest)).trans (List.suffix_cons a _)

theorem chain_concat (ordered : List Planar) (p : Planar) :
    chain (ordered ++ [p]) = p :: settle p (chain ordered) := by
  simp [chain]

theorem chain_subset (ordered : List Planar) : chain ordered ⊆ ordered := by
  induction ordered using List.reverseRecOn with
  | nil => exact List.nil_subset _
  | append_singleton ordered p induction =>
      rw [chain_concat]
      refine List.cons_subset.2 ⟨by simp, ?_⟩
      exact List.subset_append_of_subset_left _
        (List.Subset.trans (settle_suffix p _).subset induction)

/-- No corner of a hull is made up. -/
theorem hull_subset (corners : List Planar) : hull corners ⊆ corners := by
  have ordered : distinct (sort corners) ⊆ corners :=
    List.Subset.trans (distinct_sublist _).subset (sort_perm corners).subset
  have half {row : List Planar} (among : row ⊆ distinct (sort corners)) :
      (chain row).tail.reverse ⊆ corners := by
    intro corner found
    exact ordered (among (chain_subset row (List.mem_of_mem_tail (List.mem_reverse.1 found))))
  unfold hull
  dsimp only
  split
  · exact ordered
  · exact List.append_subset.2 ⟨half (List.Subset.refl _), half (by simp)⟩

theorem hull_eq_of_perm (reorders : corners.Perm reordered) : hull corners = hull reordered := by
  rw [hull, hull, sort_eq_of_perm reorders]

end Outline

theorem Ledger.ofCorners?_eq_some {corners : List Planar} {ledger : Ledger} :
    Ledger.ofCorners? corners = some ledger ↔
      (Outline.hull corners).enclosesArea = true ∧ ledger = blank (Outline.hull corners) := by
  unfold ofCorners?
  dsimp only
  split
  · rename_i encloses
    simp [encloses, eq_comm]
  · rename_i open_
    simp [open_]

namespace Engine

/-- However the corners come, the sheet that is made of them is the same one, or the same fault. Its
outline leads along corners that were given. -/
theorem fromCorners_perm {corners reordered : List Planar} (reorders : corners.Perm reordered) :
    plain.fromCorners reordered = plain.fromCorners corners ∧
      ∀ ledger, plain.fromCorners corners = .ok ledger →
        ∀ corner ∈ ledger.outline, corner ∈ corners := by
  constructor
  · simp only [plain, Ledger.ofCorners?, Outline.hull_eq_of_perm reorders,
      reorders.length_eq]
  · intro ledger made
    cases found : Ledger.ofCorners? corners with
    | none => simp [plain, found] at made
    | some sheet =>
        obtain rfl : sheet = ledger := by simpa [plain, found] using made
        obtain ⟨-, rfl⟩ := Ledger.ofCorners?_eq_some.1 found
        exact Outline.hull_subset corners

/-- Corners with zeros of both signs and one with no number, and the same corners the other way round. -/
theorem fromCorners_perm_reversed :
    let zero := Coordinate.zero
    let four := Coordinate.ofNat 4
    let corners : List Planar :=
      [⟨four, zero⟩, ⟨zero, four⟩, ⟨zero.negate, zero⟩, ⟨zero, zero.negate⟩, ⟨.one, .notANumber⟩]
    corners.Perm corners.reverse ∧
      plain.fromCorners corners =
        .ok (.blank [⟨zero.negate, zero⟩, ⟨four, zero⟩, ⟨zero, four⟩]) ∧
      plain.fromCorners corners.reverse = plain.fromCorners corners ∧
      ∀ ledger, plain.fromCorners corners = .ok ledger →
        ∀ corner ∈ ledger.outline, corner ∈ corners := by
  intro zero four corners
  exact ⟨(List.reverse_perm corners).symm, by decide +kernel,
    fromCorners_perm (List.reverse_perm corners).symm⟩

end Engine

end PaperFolding
