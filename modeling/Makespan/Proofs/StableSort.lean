import Mathlib

/-! Stable sorting, told without a way to sort. -/

namespace Makespan

/-- The second list is the first one in ascending order; what has one rank stands as it stood. -/
structure StableSorted {α : Type} (rank : α → Int) (l l' : List α) : Prop where
  perm : l'.Perm l
  ascending : l'.Pairwise fun a b => rank a ≤ rank b
  ties : ∀ r, l'.filter (rank · = r) = l.filter (rank · = r)

namespace StableSorted

variable {α : Type} {rank rank' : α → Int} {l l' : List α} {a : α}

theorem refl (h : l.Pairwise fun a b => rank a ≤ rank b) : StableSorted rank l l :=
  ⟨.refl l, h, fun _ => rfl⟩

theorem congr (h : StableSorted rank l l') (hr : ∀ a ∈ l, rank' a = rank a) :
    StableSorted rank' l l' := by
  have hr' : ∀ a ∈ l', rank' a = rank a := fun a ha => hr a (h.perm.mem_iff.mp ha)
  refine ⟨h.perm, h.ascending.imp_of_mem fun ha hb hab => ?_, fun r => ?_⟩
  · rwa [hr' _ ha, hr' _ hb]
  · rw [List.filter_congr fun a ha => by rw [hr' a ha], h.ties r]
    exact List.filter_congr fun a ha => by rw [hr a ha]

/-- An order in which what has one rank stands is kept beneath the order of ranks. -/
theorem pairwise_of_ties (h : StableSorted rank l l') {R : α → α → Prop}
    (hR : l.Pairwise fun a b => rank a = rank b → R a b) :
    l'.Pairwise fun a b => rank a < rank b ∨ rank a = rank b ∧ R a b := by
  refine List.pairwise_iff_forall_sublist.mpr fun {a b} hab => ?_
  have hle := List.pairwise_iff_forall_sublist.mp h.ascending hab
  refine hle.lt_or_eq.imp_right fun he => ⟨he, ?_⟩
  have hsub := hab.filter (rank · = rank a)
  have hboth : [a, b].filter (rank · = rank a) = [a, b] := by simp [he]
  rw [hboth, h.ties] at hsub
  exact List.pairwise_iff_forall_sublist.mp hR (hsub.trans List.filter_sublist) he

/-- What comes last stands behind everything of its rank. -/
theorem exists_split (h : StableSorted rank (l ++ [a]) l') :
    ∃ front back, l' = front ++ a :: back ∧ (∀ b ∈ front, rank b ≤ rank a) ∧
      ∀ b ∈ back, rank a < rank b := by
  have hties := h.ties (rank a)
  rw [List.filter_append, List.filter_singleton, decide_eq_true rfl, cond_true] at hties
  obtain ⟨front, rest, rfl, -, hrest⟩ := List.filter_eq_append_iff.mp hties
  obtain ⟨middle, back, rfl, -, -, hback⟩ := List.filter_eq_cons_iff.mp hrest
  have hasc := h.ascending
  rw [← List.append_assoc] at hasc ⊢
  obtain ⟨-, hlast, hbefore⟩ := List.pairwise_append.mp hasc
  refine ⟨front ++ middle, back, rfl, fun b hb => hbefore b hb a List.mem_cons_self,
    fun b hb => lt_of_le_of_ne (List.rel_of_pairwise_cons hlast hb) fun he => ?_⟩
  have hnot := List.filter_eq_nil_iff.mp hback b hb
  exact hnot (decide_eq_true he.symm)

/-- Merge sort is stable. -/
theorem mergeSort (rank : α → Int) (l : List α) :
    StableSorted rank l (l.mergeSort fun a b => decide (rank a ≤ rank b)) := by
  have htrans : ∀ a b c : α, decide (rank a ≤ rank b) → decide (rank b ≤ rank c) →
      decide (rank a ≤ rank c) := by
    intro a b c
    simp only [decide_eq_true_eq]
    exact le_trans
  have htotal : ∀ a b : α, (decide (rank a ≤ rank b) || decide (rank b ≤ rank a)) = true := by
    intro a b
    simpa using le_total (rank a) (rank b)
  have hperm := List.mergeSort_perm l fun a b => decide (rank a ≤ rank b)
  refine ⟨hperm, ?_, fun r => ?_⟩
  · exact (List.pairwise_mergeSort htrans htotal l).imp fun hab => of_decide_eq_true hab
  · -- the elements of one rank are a sorted part of the list, which merge sort leaves as it is
    have hsorted : (l.filter (rank · = r)).Pairwise fun a b => decide (rank a ≤ rank b) = true := by
      refine List.pairwise_iff_forall_sublist.mpr fun {a b} hab => decide_eq_true ?_
      have ha := List.of_mem_filter (hab.subset List.mem_cons_self)
      have hb := List.of_mem_filter (hab.subset (List.mem_cons_of_mem a List.mem_cons_self))
      rw [of_decide_eq_true ha, of_decide_eq_true hb]
    have hsub := (List.sublist_mergeSort htrans htotal hsorted List.filter_sublist).filter
      (rank · = r)
    simp only [List.filter_filter, Bool.and_self] at hsub
    exact (hsub.eq_of_length (hperm.filter _).length_eq.symm).symm

end StableSorted

end Makespan
