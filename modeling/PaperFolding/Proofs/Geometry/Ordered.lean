import PaperFolding.Proofs.Geometry.Chain

/-!
How the order of the corners by their bits stands to the order of their values. Where minus zero and zero
stand in one column, the two may differ; elsewhere they do not.
-/

namespace PaperFolding

open Planar Way

namespace Coordinate

variable {x y : Coordinate} {a : ℤ}

theorem Stands.isFinite (stands : x.Stands a) : x.isFinite = true := by
  rw [isFinite_eq]
  exact Exactly.isFinite stands

/-- A whole number up to the bound with either sign; both zeros are among them. -/
def WholeWithin (bound : ℕ) (x : Coordinate) : Prop :=
  ∃ n ≤ bound, x = Coordinate.ofNat n ∨ x = (Coordinate.ofNat n).negate

theorem WholeWithin.stands (whole : x.WholeWithin (2 ^ 20)) : ∃ a, x.Stands a ∧ |a| ≤ 2 ^ 20 := by
  obtain ⟨n, bounded, rfl | rfl⟩ := whole
  · refine ⟨n, .ofNat (by omega), ?_⟩
    rw [Nat.abs_cast]
    exact_mod_cast bounded
  · refine ⟨-n, (Stands.ofNat (by omega)).negate, ?_⟩
    rw [abs_neg, Nat.abs_cast]
    exact_mod_cast bounded

end Coordinate

namespace Planar

variable {p q : Planar}

theorem onGrid_of_wholeWithin (x : p.x.WholeWithin (2 ^ 20)) (y : p.y.WholeWithin (2 ^ 20)) :
    OnGrid p := by
  obtain ⟨a, x, xBound⟩ := x.stands
  obtain ⟨b, y, yBound⟩ := y.stands
  exact ⟨a, b, x, y, xBound, yBound⟩

theorem OnGrid.finite (grid : OnGrid p) : p.x.isFinite = true ∧ p.y.isFinite = true := by
  obtain ⟨a, b, whole⟩ := grid
  exact ⟨whole.x.isFinite, whole.y.isFinite⟩

/-- The first point does not come behind the second one, by their values. -/
def Leads (p q : Planar) : Prop := way p q = 0 ∨ Rising (way p q)

theorem leads_of_le (x : p.x.value ≤ q.x.value) (y : p.x.value = q.x.value → p.y.value ≤ q.y.value) :
    Leads p q := by
  obtain right | straight := x.lt_or_eq
  · exact .inr (.inl (sub_pos.2 right))
  · obtain up | level := (y straight).lt_or_eq
    · exact .inr (.inr ⟨sub_eq_zero.2 straight.symm, sub_pos.2 up⟩)
    · exact .inl (Prod.ext (sub_eq_zero.2 straight.symm) (sub_eq_zero.2 level.symm))

theorem Leads.rising_trans {o a p : Planar} (rises : Rising (way o a)) (leads : Leads a p) :
    Rising (way o p) := by
  rw [← way_add o a p]
  obtain still | onward := leads
  · rwa [still, add_zero]
  · exact rises.add onward

theorem Leads.trans_rising {o a p : Planar} (leads : Leads o a) (rises : Rising (way a p)) :
    Rising (way o p) := by
  rw [← way_add o a p]
  obtain still | onward := leads
  · rwa [still, zero_add]
  · exact onward.add rises

theorem OnGrid.same_iff (p' : OnGrid p) (q' : OnGrid q) : p.same q = true ↔ way p q = 0 := by
  obtain ⟨a, b, p'⟩ := p'
  obtain ⟨c, d, q'⟩ := q'
  rw [same, Bool.and_eq_true, p'.x.same q'.x, p'.y.same q'.y, Prod.ext_iff]
  simp [way, p'.x.value, p'.y.value, q'.x.value, q'.y.value, sub_eq_zero, eq_comm]

end Planar

namespace Outline

variable {p q : Planar} {corners : List Planar}

theorem value_le_of_before (p' : OnGrid p) (q' : OnGrid q) (sorted : before p q = true) :
    p.x.value ≤ q.x.value := by
  refine Coordinate.value_le_of_rank_le p'.finite.1 q'.finite.1 ?_
  rw [before_iff] at sorted
  omega

/-- Only where minus zero stands before zero may a corner come behind the next one. -/
theorem leads_of_before (p' : OnGrid p) (q' : OnGrid q) (sorted : before p q = true)
    (zeros : p.x = .negate .zero → q.x = .zero → p.y.value ≤ q.y.value) : Leads p q := by
  refine leads_of_le (value_le_of_before p' q' sorted) fun straight => ?_
  obtain ahead | ⟨-, up⟩ := before_iff.1 sorted
  · obtain ⟨minus, plus⟩ := Coordinate.zeros_of_rank_lt p'.finite.1 q'.finite.1 ahead straight
    exact zeros minus plus
  · exact Coordinate.value_le_of_rank_le p'.finite.2 q'.finite.2 up

theorem distinctAfter_isChain (last : Planar) (corners : List Planar) :
    (last :: distinctAfter last corners).IsChain fun a b => ¬ a.same b = true := by
  induction corners generalizing last with
  | nil => exact .singleton last
  | cons p corners induction =>
      rw [distinctAfter]
      split
      · exact induction last
      · rename_i differs
        exact .cons_cons differs (induction p)

theorem distinct_isChain : ∀ corners : List Planar,
    (distinct corners).IsChain fun a b => ¬ a.same b = true
  | [] => .nil
  | p :: corners => distinctAfter_isChain p corners

theorem exists_same_of_mem_distinctAfter {c last : Planar} (known : c ∈ corners) :
    ∃ d ∈ last :: distinctAfter last corners, d = c ∨ d.same c = true := by
  induction corners generalizing last with
  | nil => simp at known
  | cons p corners induction =>
      rw [distinctAfter]
      obtain rfl | behind := List.mem_cons.1 known
      · split
        · rename_i same
          exact ⟨last, by simp, .inr same⟩
        · exact ⟨c, by simp, .inl rfl⟩
      · split
        · exact induction behind
        · obtain ⟨d, kept, same⟩ : ∃ d ∈ p :: distinctAfter p corners, d = c ∨ d.same c = true :=
            induction behind
          exact ⟨d, List.mem_cons_of_mem last kept, same⟩

/-- Every corner is kept, or one that equals it by value. -/
theorem exists_same_of_mem_distinct {c : Planar} (known : c ∈ corners) :
    ∃ d ∈ distinct corners, d = c ∨ d.same c = true := by
  cases corners with
  | nil => simp at known
  | cons p corners =>
      obtain rfl | behind := List.mem_cons.1 known
      · exact ⟨c, by simp [distinct], .inl rfl⟩
      · exact exists_same_of_mem_distinctAfter behind

section Ends

variable {row : List Planar} {first last : Planar} (grid : ∀ s ∈ row, OnGrid s)
  (sorted : row.Pairwise fun p q => before p q = true)
  (differ : row.IsChain fun p q => ¬ p.same q = true)
include grid sorted differ

/-- If no corner in the column of the first one comes behind the next, all others lie ahead of the first. -/
theorem rising_of_first {later : List Planar} (split : row = first :: later)
    (leads : ∀ p ∈ row, ∀ q ∈ row, p.x.value = first.x.value → before p q = true → Leads p q) :
    ∀ s ∈ later, Rising (way first s) := by
  subst split
  intro s known
  obtain ⟨begins, sorted⟩ := List.pairwise_cons.1 sorted
  have onGrid : ∀ {r}, r ∈ later → OnGrid r := fun known => grid _ (by simp [known])
  have strictly : ∀ t ∈ later.head?, Rising (way first t) := by
    intro t next
    have known := List.mem_of_mem_head? next
    have apart := (List.isChain_cons.1 differ).1 t next
    rw [(grid first (by simp)).same_iff (onGrid known)] at apart
    exact (leads first (by simp) t (by simp [known]) rfl (begins t known)).resolve_left apart
  cases later with
  | nil => simp at known
  | cons t rest =>
      obtain rfl | behind := List.mem_cons.1 known
      · exact strictly s rfl
      · have rises := strictly t rfl
        refine (leads first (by simp) s (by simp [known]) rfl (begins s known)).resolve_left ?_
        intro still
        -- `t` stands between two corners of one value, so it stands in their column
        have after := (List.pairwise_cons.1 sorted).1 s behind
        have low := value_le_of_before (grid first (by simp)) (onGrid (by simp)) (begins t (by simp))
        have high := value_le_of_before (onGrid (by simp)) (onGrid known) after
        have column : s.x.value = first.x.value := sub_eq_zero.1 (congrArg Prod.fst still)
        refine Rising.ne_zero (Leads.rising_trans rises ?_) still
        exact leads t (by simp) s (by simp [known]) (by linarith) after

/-- If no corner before the last one in its column comes behind the next, the last lies ahead of all
others. -/
theorem rising_of_last {front : List Planar} (split : row = front ++ [last])
    (leads : ∀ p ∈ row, ∀ q ∈ row, q.x.value = last.x.value → before p q = true → Leads p q) :
    ∀ s ∈ front, Rising (way s last) := by
  subst split
  intro s known
  obtain ⟨sorted, -, ends⟩ := List.pairwise_append.1 sorted
  have ends : ∀ s ∈ front, before s last = true := fun s known => ends s known last (by simp)
  have onGrid : ∀ {r}, r ∈ front → OnGrid r := fun known => grid _ (by simp [known])
  have strictly : ∀ t ∈ front.getLast?, Rising (way t last) := by
    intro t next
    have known := List.mem_of_getLast? next
    have apart := (List.isChain_append.1 differ).2.2 t next last rfl
    rw [(onGrid known).same_iff (grid last (by simp))] at apart
    exact (leads t (by simp [known]) last (by simp) rfl (ends t known)).resolve_left apart
  obtain rfl | ⟨rest, t, rfl⟩ := front.eq_nil_or_concat'
  · simp at known
  · obtain behind | rfl := List.mem_append.1 known |>.imp_right List.mem_singleton.1
    · have rises := strictly t (by simp)
      refine (leads s (by simp [behind]) last (by simp) rfl (ends s known)).resolve_left ?_
      intro still
      have after := (List.pairwise_append.1 sorted).2.2 s behind t (by simp)
      have low := value_le_of_before (onGrid known) (onGrid (by simp)) after
      have high := value_le_of_before (onGrid (by simp)) (grid last (by simp)) (ends t (by simp))
      have column : last.x.value = s.x.value := sub_eq_zero.1 (congrArg Prod.fst still)
      refine Rising.ne_zero (Leads.trans_rising ?_ rises) still
      exact leads s (by simp [behind]) t (by simp) (by linarith) after
    · exact strictly s (by simp)

end Ends

/-- Where the two zeros stand in one column, minus zero is not above zero, or there are corners to the left
and to the right of that column. -/
def ZerosOrdered (corners : List Planar) : Prop :=
  (∀ p ∈ corners, ∀ q ∈ corners, p.x = .negate .zero → q.x = .zero → p.y.le q.y = true) ∨
    (∃ p ∈ corners, p.x.lt .zero = true) ∧ ∃ q ∈ corners, Coordinate.zero.lt q.x = true

/-- The sorted corners without repetitions: from left to right, and the outermost ones at the ends. -/
structure Ranged (row : List Planar) : Prop where
  grid : ∀ s ∈ row, OnGrid s
  onward : row.Pairwise fun s q => 0 ≤ (way s q).1
  first : ∀ first later, row = first :: later → ∀ s ∈ later, Rising (way first s)
  last : ∀ front last, row = front ++ [last] → ∀ s ∈ front, Rising (way s last)

theorem exists_kept (grid : ∀ s ∈ corners, OnGrid s) {c : Planar} (known : c ∈ corners) :
    ∃ d ∈ distinct (sort corners), way d c = 0 := by
  obtain ⟨d, kept, rfl | same⟩ := exists_same_of_mem_distinct ((sort_perm corners).mem_iff.2 known)
  · exact ⟨d, kept, way_self d⟩
  · have among := (sort_perm corners).subset ((distinct_sublist _).subset kept)
    exact ⟨d, kept, ((grid d among).same_iff (grid c known)).1 same⟩

theorem ranged (grid : ∀ s ∈ corners, OnGrid s) (zeros : ZerosOrdered corners) :
    Ranged (distinct (sort corners)) := by
  have among {s : Planar} (known : s ∈ distinct (sort corners)) : s ∈ corners :=
    (sort_perm corners).subset ((distinct_sublist _).subset known)
  have grid' : ∀ s ∈ distinct (sort corners), OnGrid s := fun s known => grid s (among known)
  have sorted := (sort_ordered corners).sublist (distinct_sublist _)
  have differ := distinct_isChain (sort corners)
  have onward : (distinct (sort corners)).Pairwise fun s q => 0 ≤ (way s q).1 :=
    sorted.imp_of_mem fun known known' sorted =>
      sub_nonneg.2 (value_le_of_before (grid' _ known) (grid' _ known') sorted)
  -- a column beside the one of the two zeros is in order, and so is that one if minus zero stands lower
  have leads {c : Planar} (beside : (∃ p ∈ corners, p.x.lt .zero = true) →
      (∃ q ∈ corners, Coordinate.zero.lt q.x = true) → c.x.value ≠ 0) :
      ∀ p ∈ distinct (sort corners), ∀ q ∈ distinct (sort corners),
        p.x.value = c.x.value ∨ q.x.value = c.x.value → before p q = true → Leads p q := by
    intro p known q known' column sorted
    refine leads_of_before (grid' p known) (grid' q known') sorted fun minus plus => ?_
    obtain low | ⟨left, right⟩ := zeros
    · obtain ⟨_, b, p'⟩ := grid' p known
      obtain ⟨_, d, q'⟩ := grid' q known'
      rw [p'.y.value, q'.y.value, Int.cast_le]
      exact (p'.y.le q'.y).1 (low p (among known) q (among known') minus plus)
    · rw [minus, plus, Coordinate.Stands.zero.value, Coordinate.Stands.zero.negate.value] at column
      exact absurd (column.elim Eq.symm Eq.symm) (by simpa using beside left right)
  have extent {c : Planar} (known : c ∈ corners) : ∃ d ∈ distinct (sort corners),
      d.x.value = c.x.value := by
    obtain ⟨d, kept, still⟩ := exists_kept grid known
    exact ⟨d, kept, (sub_eq_zero.1 (congrArg Prod.fst still)).symm⟩
  refine ⟨grid', onward, ?_, ?_⟩
  · intro first later split
    refine rising_of_first grid' sorted differ split fun p known q known' column =>
      leads ?_ p known q known' (.inl column)
    rintro ⟨c, known, left⟩ -
    obtain ⟨d, kept, same⟩ := extent known
    obtain ⟨a, _, whole⟩ := grid c known
    rw [whole.x.lt .zero] at left
    have least : 0 ≤ (way first d).1 := by
      rw [split] at kept onward
      obtain rfl | behind := List.mem_cons.1 kept
      · simp
      · exact (List.pairwise_cons.1 onward).1 d behind
    have negative : c.x.value < 0 := by
      rw [whole.x.value]
      exact_mod_cast left
    simp only [way] at least
    linarith
  · intro front last split
    refine rising_of_last grid' sorted differ split fun p known q known' column =>
      leads ?_ p known q known' (.inr column)
    rintro - ⟨c, known, right⟩
    obtain ⟨d, kept, same⟩ := extent known
    obtain ⟨a, _, whole⟩ := grid c known
    rw [Coordinate.Stands.zero.lt whole.x] at right
    have most : 0 ≤ (way d last).1 := by
      rw [split] at kept onward
      obtain before | rfl := List.mem_append.1 kept |>.imp_right List.mem_singleton.1
      · exact (List.pairwise_append.1 onward).2.2 d before last (by simp)
      · simp
    have positive : 0 < c.x.value := by
      rw [whole.x.value]
      exact_mod_cast right
    simp only [way] at most
    linarith

end Outline

end PaperFolding
