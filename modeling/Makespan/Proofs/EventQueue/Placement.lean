import Makespan.EventQueue
import Makespan.Proofs.StableSort

/-! Where an event is placed: after everything that is not later, and before everything that is.
Any order of a queue that agrees with this is kept. -/

namespace Makespan.EventQueue

variable {α : Type} {time : Time} {event : α} {l : List (Time × α)}

theorem place_perm (time : Time) (event : α) (l : List (Time × α)) :
    (place time event l).Perm ((time, event) :: l) := by
  induction l with
  | nil => exact .refl _
  | cons e l ih =>
    unfold place
    split
    · exact (ih.cons e).trans (.swap _ _ _)
    · exact .refl _

theorem place_ne_nil (time : Time) (event : α) (l : List (Time × α)) :
    place time event l ≠ [] := by
  intro h
  have hp := place_perm time event l
  rw [h] at hp
  exact List.cons_ne_nil _ _ hp.nil_eq.symm

theorem place_last (h : ∀ e ∈ l, e.1.rank ≤ time.rank) :
    place time event l = l ++ [(time, event)] := by
  induction l with
  | nil => rfl
  | cons e l ih =>
    unfold place
    rw [if_pos (h e (by simp)), ih fun x hx => h x (List.mem_cons_of_mem e hx)]
    rfl

/-- An order of events that never puts a later one first. -/
theorem place_pairwise {R : Time × α → Time × α → Prop}
    (hR : ∀ x y, R x y → x.1.rank ≤ y.1.rank) (h : l.Pairwise R)
    (hbehind : ∀ e ∈ l, e.1.rank ≤ time.rank → R e (time, event))
    (hahead : ∀ e ∈ l, time.rank < e.1.rank → R (time, event) e) :
    (place time event l).Pairwise R := by
  induction l with
  | nil => simp [place]
  | cons e l ih =>
    obtain ⟨he, hl⟩ := List.pairwise_cons.mp h
    unfold place
    split
    · rename_i hle
      refine List.pairwise_cons.mpr ⟨fun x hx => ?_, ih hl
        (fun x hx => hbehind x (List.mem_cons_of_mem e hx))
        (fun x hx => hahead x (List.mem_cons_of_mem e hx))⟩
      rcases List.mem_cons.mp ((place_perm _ _ _).mem_iff.mp hx) with rfl | hx
      · exact hbehind e (by simp) hle
      · exact he x hx
    · rename_i hlt
      have hlt := not_le.mp hlt
      refine List.pairwise_cons.mpr ⟨fun x hx => hahead x hx ?_, h⟩
      rcases List.mem_cons.mp hx with rfl | hx
      · exact hlt
      · exact hlt.trans_le (hR e x (he x hx))

/-- Whatever time is looked at, a new event comes last. -/
theorem filter_place (h : l.Pairwise fun x y => x.1.rank ≤ y.1.rank) (r : Int) :
    (place time event l).filter (·.1.rank = r) =
      l.filter (·.1.rank = r) ++ [(time, event)].filter (·.1.rank = r) := by
  induction l with
  | nil => rfl
  | cons e l ih =>
    obtain ⟨he, hl⟩ := List.pairwise_cons.mp h
    unfold place
    split
    · rw [List.filter_cons, List.filter_cons, ih hl]
      split <;> rfl
    · rename_i hlt
      have hlt := not_le.mp hlt
      by_cases hr : time.rank = r
      · have hnone : (e :: l).filter (·.1.rank = r) = [] := by
          refine List.filter_eq_nil_iff.mpr fun x hx => ?_
          have hx : e.1.rank ≤ x.1.rank := (List.mem_cons.mp hx).elim (fun h => h ▸ le_rfl) (he x)
          have hne : x.1.rank ≠ r := by omega
          simpa using hne
        rw [List.filter_cons, hnone, List.filter_singleton]
        simp [hr]
      · rw [List.filter_cons, List.filter_singleton]
        simp [hr]

/-- To schedule an event is to sort it in as the last one. -/
theorem stableSorted_place {l' : List (Time × α)} (h : StableSorted (fun e => e.1.rank) l l')
    (time : Time) (event : α) :
    StableSorted (fun e => e.1.rank) (l ++ [(time, event)]) (place time event l') where
  perm := (place_perm time event l').trans
    ((h.perm.cons _).trans (List.perm_append_singleton _ _).symm)
  ascending := place_pairwise (fun _ _ hxy => hxy) h.ascending (fun _ _ hle => hle)
    fun _ _ hlt => hlt.le
  ties r := by rw [filter_place h.ascending, h.ties, List.filter_append]

theorem pop?_of_pending {q : EventQueue α} {rest : List (Time × α)}
    (h : q.pending = (time, event) :: rest) : q.pop? = some (time, event, ⟨rest⟩) := by
  simp [pop?, h]

end Makespan.EventQueue
