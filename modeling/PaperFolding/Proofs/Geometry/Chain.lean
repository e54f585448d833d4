import PaperFolding.Proofs.Geometry.Sorting
import PaperFolding.Proofs.Geometry.Turning

/-!
The chain along sorted corners. It turns strictly left, and none of the corners that it has passed lies to
the right of one of its edges; so no corner that it drops is lost.
-/

namespace PaperFolding

open Planar Way

/-- What holds of any three points of the row that follow each other. -/
def Threes (R : Planar → Planar → Planar → Prop) (row : List Planar) : Prop :=
  ∀ o a p, [o, a, p] <:+: row → R o a p

namespace Threes

variable {R : Planar → Planar → Planar → Prop} {row part : List Planar} {o a : Planar}

theorem of_infix (threes : Threes R row) (among : part <:+: row) : Threes R part :=
  fun o a p found => threes o a p (found.trans among)

theorem single : Threes R [o] := by
  intro _ _ _ found
  simpa using found.length_le

theorem pair : Threes R [o, a] := by
  intro _ _ _ found
  simpa using found.length_le

theorem cons_cons_iff :
    Threes R (o :: a :: row) ↔ (∀ p ∈ row.head?, R o a p) ∧ Threes R (a :: row) := by
  constructor
  · intro threes
    refine ⟨fun p next => threes o a p ?_, threes.of_infix (List.infix_cons List.infix_rfl)⟩
    obtain ⟨rest, rfl⟩ := List.head?_eq_some_iff.1 next
    exact ⟨[], rest, rfl⟩
  · rintro ⟨begins, threes⟩ o' a' p found
    obtain front | behind := List.infix_cons_iff.1 found
    · obtain ⟨rest, same⟩ := front
      obtain ⟨rfl, rfl, rfl⟩ : o' = o ∧ a' = a ∧ p :: rest = row := by simpa using same
      exact begins p rfl
    · exact threes o' a' p behind

theorem append {front back : List Planar} (threes : Threes R (front ++ [o, a]))
    (threes' : Threes R (o :: a :: back)) : Threes R (front ++ o :: a :: back) := by
  induction front with
  | nil => exact threes'
  | cons b front induction =>
      cases front with
      | nil =>
          obtain ⟨begins, -⟩ := cons_cons_iff.1 threes
          exact cons_cons_iff.2 ⟨begins, threes'⟩
      | cons c front =>
          obtain ⟨begins, threes⟩ := cons_cons_iff.1 threes
          refine cons_cons_iff.2 ⟨fun p next => begins p ?_, induction threes⟩
          cases front <;> exact next

theorem reverse_iff : Threes R row.reverse ↔ Threes (fun p a o => R o a p) row := by
  constructor
  · intro threes p a o found
    exact threes o a p (List.reverse_infix.2 found)
  · intro threes o a p found
    refine threes p a o (List.reverse_infix.1 ?_)
    simpa using found

end Threes

/-- At each of its inner points the way turns to the left. -/
def TurnsLeft (path : List Planar) : Prop := Threes (fun o a p => 0 < bend o a p) path

namespace Outline

variable {σ : ℚ} {seen : List Planar} {first q : Planar} {built row : List Planar}

/-- What holds of an edge of a chain, from `o` to `a`: it runs forward, and no corner that was seen lies to
the right of it. -/
structure Edge (σ : ℚ) (seen : List Planar) (a o : Planar) : Prop where
  forward : Forward σ (way o a)
  support : ∀ s ∈ seen, 0 ≤ bend o a s

theorem Edge.extend {a o : Planar} (edge : Edge σ seen a o) (left : 0 ≤ bend o a q) :
    Edge σ (seen ++ [q]) a o where
  forward := edge.forward
  support s known := by
    obtain before | rfl := List.mem_append.1 known |>.imp_right List.mem_singleton.1
    · exact edge.support s before
    · exact left

/-- A chain, its last point first, that begins at `first` and runs along `seen`. -/
structure Course (σ : ℚ) (first : Planar) (seen built : List Planar) : Prop where
  begins : built.getLast? = some first
  edges : built.IsChain (Edge σ seen)
  turns : Threes (fun p a o => 0 < bend o a p) built

variable (square : σ * σ = 1)
include square

/-- A point that lies to the left of the last edge, or on it, lies so for the edges before. -/
theorem edges_extend {a : Planar} {row : List Planar} (edges : (a :: row).IsChain (Edge σ seen))
    (turns : Threes (fun p a o => 0 < bend o a p) (a :: row)) (forward : Forward σ (way a q))
    (last : ∀ o ∈ row.head?, 0 ≤ bend o a q) :
    (a :: row).IsChain (Edge σ (seen ++ [q])) := by
  induction row generalizing a with
  | nil => exact .singleton a
  | cons o row induction =>
      obtain ⟨edge, edges⟩ := List.isChain_cons_cons.1 edges
      obtain ⟨turn, turns⟩ := Threes.cons_cons_iff.1 turns
      have onward : Forward σ (way o q) := way_add o a q ▸ edge.forward.add forward
      refine .cons_cons (edge.extend (last o rfl)) (induction edges turns onward ?_)
      intro o' before
      have edge' := (List.isChain_cons.1 edges).1 o' before
      rw [bend_eq]
      refine edge'.forward.trans square edge.forward onward ?_ (last o rfl)
      rw [← bend_eq]
      exact (turn o' before).le

/-- What taking corners off the chain ends with: all corners ahead of the last one that is kept lie to the
left of the way on. -/
theorem exists_settled {t : Planar} {row : List Planar} (grid : ∀ s ∈ seen, OnGrid s)
    (grid' : OnGrid q) (onward : ∀ s ∈ seen, 0 ≤ σ * (way s q).1) (among : t :: row ⊆ seen)
    (edges : (t :: row).IsChain (Edge σ seen))
    (reach : ∀ s ∈ seen, Forward σ (way t s) → 0 ≤ bend t q s) :
    ∃ a rest, settle q (t :: row) = a :: rest ∧ a :: rest <:+ t :: row ∧
      (∀ s ∈ seen, Forward σ (way a s) → 0 ≤ bend a q s) ∧
      ∀ o ∈ rest.head?, 0 < bend o a q := by
  induction row generalizing t with
  | nil => exact ⟨t, [], rfl, List.suffix_rfl, reach, by simp⟩
  | cons o row induction =>
      have grids : OnGrid t ∧ OnGrid o := ⟨grid t (among (by simp)), grid o (among (by simp))⟩
      obtain ⟨edge, edges⟩ := List.isChain_cons_cons.1 edges
      rw [settle_cons_cons]
      split
      · rename_i left
        rw [grids.2.lt_turn grids.1 grid'] at left
        exact ⟨t, o :: row, rfl, List.suffix_rfl, reach, by simpa using left⟩
      · rename_i right
        rw [grids.2.lt_turn grids.1 grid', not_lt] at right
        have ahead : ∀ s ∈ seen, Forward σ (way o s) → 0 ≤ bend o q s := by
          intro s known forward
          have beyond {r : Planar} (known : r ∈ seen) : σ * (way o r).1 ≤ σ * (way o q).1 := by
            have := onward r known
            simp only [way] at this ⊢
            linarith
          refine edge.forward.trans_of_onward square forward (beyond (among (by simp)))
            (beyond known) ?_ (edge.support s known)
          have := bend_swap o q t
          unfold bend at this right
          linarith
        obtain ⟨a, rest, settled, suffix, reach, turn⟩ :=
          induction (List.cons_subset.1 among).2 edges ahead
        exact ⟨a, rest, settled, suffix.trans (List.suffix_cons t _), reach, turn⟩

/-- The way on from the last corner that is kept runs forward and has no corner to its right. -/
theorem edge_of_settled {a : Planar} {rest : List Planar} (course : Course σ first seen (a :: rest))
    (ahead : ∀ s ∈ seen, s = first ∨ Forward σ (way first s)) (forward : Forward σ (way first q))
    (onward : 0 ≤ σ * (way a q).1) (reach : ∀ s ∈ seen, Forward σ (way a s) → 0 ≤ bend a q s)
    (turn : ∀ o ∈ rest.head?, 0 < bend o a q) : Edge σ (seen ++ [q]) q a := by
  cases rest with
  | nil =>
      obtain rfl : a = first := by simpa using course.begins
      refine Edge.extend ⟨forward, fun s known => ?_⟩ (bend_last a q).ge
      obtain rfl | beyond := ahead s known
      · simp [bend, wedge]
      · exact reach s known beyond
  | cons o rest =>
      have edge := (List.isChain_cons_cons.1 course.edges).1
      have left := turn o rfl
      rw [bend_eq] at left
      have rises := edge.forward.of_turn square onward left
      refine Edge.extend ⟨rises, fun s known => ?_⟩ (bend_last a q).ge
      obtain still | beyond | behind := Forward.total square (way a s)
      · simp [bend, wedge, still]
      · exact reach s known beyond
      · rw [neg_way] at behind
        rw [bend_rotate, bend_eq]
        refine behind.trans square edge.forward rises ?_ left.le
        have support := edge.support s known
        rw [bend_eq, ← neg_way s a] at support
        simp only [wedge, Prod.fst_neg, Prod.snd_neg] at support ⊢
        linarith

theorem Course.step {t : Planar} (course : Course σ first seen (t :: row))
    (among : t :: row ⊆ seen) (grid : ∀ s ∈ seen, OnGrid s) (grid' : OnGrid q)
    (onward : ∀ s ∈ seen, 0 ≤ σ * (way s q).1)
    (ahead : ∀ s ∈ seen, s = first ∨ Forward σ (way first s)) (forward : Forward σ (way first q))
    (top : ∀ s ∈ seen, 0 ≤ σ * (way s t).1) :
    Course σ first (seen ++ [q]) (q :: settle q (t :: row)) := by
  have reach : ∀ s ∈ seen, Forward σ (way t s) → 0 ≤ bend t q s := by
    intro s known beyond
    refine beyond.left_of_straight square ?_ (onward t (among (by simp)))
    have straight := top s known
    simp only [way] at straight ⊢
    linarith
  obtain ⟨a, rest, settled, suffix, reach, turn⟩ :=
    exists_settled square grid grid' onward among course.edges reach
  have begins : (a :: rest).getLast? = some first := by
    obtain ⟨dropped, same⟩ := suffix
    rw [← course.begins, ← same, List.getLast?_append_cons]
  have kept : Course σ first seen (a :: rest) :=
    ⟨begins, course.edges.suffix suffix, course.turns.of_infix suffix.isInfix⟩
  have edge := edge_of_settled square kept ahead forward
    (onward a (among (suffix.subset (by simp)))) reach turn
  rw [settled]
  refine ⟨?_, ?_, Threes.cons_cons_iff.2 ⟨turn, kept.turns⟩⟩
  · rw [List.getLast?_cons_cons]
    exact begins
  · exact .cons_cons edge (edges_extend square kept.edges kept.turns edge.forward
      fun o before => (turn o before).le)

/-- The chain along corners that are sorted from left to right, or from right to left, and of which the
first is the outermost. -/
theorem course_chain {later : List Planar} (grid : ∀ s ∈ first :: later, OnGrid s)
    (onward : (first :: later).Pairwise fun s q => 0 ≤ σ * (way s q).1)
    (ahead : ∀ s ∈ later, Forward σ (way first s)) :
    Course σ first (first :: later) (chain (first :: later)) ∧
      (chain (first :: later)).head? = (first :: later).getLast? := by
  induction later using List.reverseRecOn with
  | nil => exact ⟨⟨rfl, .singleton first, Threes.single⟩, rfl⟩
  | append_singleton later q induction =>
      rw [← List.cons_append, List.pairwise_append] at onward
      obtain ⟨onward, -, toLast⟩ := onward
      have toLast : ∀ s ∈ first :: later, 0 ≤ σ * (way s q).1 := fun s known =>
        toLast s known q (by simp)
      obtain ⟨course, last⟩ := induction (fun s known => grid s (by simp at known ⊢; tauto)) onward
        fun s known => ahead s (by simp [known])
      rw [← List.cons_append, chain_concat]
      refine ⟨?_, (List.getLast?_concat ..).symm⟩
      obtain ⟨t, row, built⟩ : ∃ t row, chain (first :: later) = t :: row :=
        List.exists_cons_of_ne_nil fun none => by
          rw [none, List.head?_nil, eq_comm, List.getLast?_eq_none_iff] at last
          contradiction
      have top : ∀ s ∈ first :: later, 0 ≤ σ * (way s t).1 := by
        rw [built, List.head?_cons] at last
        obtain ⟨before, same⟩ := List.getLast?_eq_some_iff.1 last.symm
        intro s known
        rw [same] at known onward
        obtain earlier | rfl := List.mem_append.1 known |>.imp_right List.mem_singleton.1
        · exact (List.pairwise_append.1 onward).2.2 s earlier t (by simp)
        · simp
      rw [built] at course ⊢
      refine course.step square (built ▸ chain_subset _) (fun s known => grid s ?_) (grid q (by simp))
        toLast (fun s known => ?_) (ahead q (by simp)) top
      · simp at known ⊢
        tauto
      · obtain rfl | behind := List.mem_cons.1 known
        · exact .inl rfl
        · exact .inr (ahead s (by simp [behind]))

end Outline

end PaperFolding
