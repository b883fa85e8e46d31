import Makespan.Proofs.Pool.Holding

/-! Workers in the order in which they are served. A pool keeps its workers by id and sorts the idle
ones again for every cycle; what it finds are the created workers, ranked once and for all, without
those that hold a task. -/

namespace Makespan

/-- Faster workers come first, equally fast ones by id. -/
def outranks (speed : WorkerId → Binary64) (v w : WorkerId) : Bool :=
  (speed w).rank < (speed v).rank || ((speed v).rank = (speed w).rank && v ≤ w)

def fastestFirst (speed : WorkerId → Binary64) (ids : List WorkerId) : List WorkerId :=
  ids.mergeSort (outranks speed)

section Ranking

variable {speed : WorkerId → Binary64}

theorem outranks_iff {v w : Nat} : outranks speed v w = true ↔
    (speed w).rank < (speed v).rank ∨ (speed v).rank = (speed w).rank ∧ v ≤ w := by
  simp [outranks]

theorem outranks_trans (u v w : WorkerId) (h : outranks speed u v) (h' : outranks speed v w) :
    outranks speed u w := by
  rw [outranks_iff] at h h' ⊢
  omega

theorem outranks_total (v w : WorkerId) : outranks speed v w || outranks speed w v := by
  rw [Bool.or_eq_true, outranks_iff, outranks_iff]
  omega

theorem outranks_antisymm {v w : Nat} (h : outranks speed v w) (h' : outranks speed w v) :
    v = w := by
  rw [outranks_iff] at h h'
  omega

theorem rank_le_of_outranks {v w : WorkerId} (h : outranks speed v w) :
    (speed w).rank ≤ (speed v).rank := by
  rw [outranks_iff] at h
  omega

theorem fastestFirst_perm (ids : List WorkerId) : (fastestFirst speed ids).Perm ids :=
  List.mergeSort_perm ids _

theorem fastestFirst_pairwise (ids : List WorkerId) :
    (fastestFirst speed ids).Pairwise fun v w => outranks speed v w :=
  List.pairwise_mergeSort outranks_trans outranks_total ids

/-- Workers that drop out leave the others in their order. -/
theorem fastestFirst_filter (ids : List WorkerId) (keep : WorkerId → Bool) :
    (fastestFirst speed ids).filter keep = fastestFirst speed (ids.filter keep) := by
  refine List.Perm.eq_of_pairwise (fun v w _ _ => outranks_antisymm)
    ((fastestFirst_pairwise ids).filter keep) (fastestFirst_pairwise _) ?_
  exact ((fastestFirst_perm ids).filter keep).trans (fastestFirst_perm _).symm

/-- The speeds by rank tell nothing of the ids. -/
theorem speeds_fastestFirst {speed' : WorkerId → Binary64} {ids ids' : List WorkerId}
    (h : (ids.map speed).Perm (ids'.map speed')) :
    (fastestFirst speed ids).map speed = (fastestFirst speed' ids').map speed' := by
  have hsorted : ∀ (f : WorkerId → Binary64) (l : List WorkerId),
      ((fastestFirst f l).map f).Pairwise fun x y => y.rank ≤ x.rank := by
    intro f l
    rw [List.pairwise_map]
    exact (fastestFirst_pairwise l).imp rank_le_of_outranks
  have hperm : ∀ (f : WorkerId → Binary64) (l : List WorkerId),
      ((fastestFirst f l).map f).Perm (l.map f) := fun f l => (fastestFirst_perm l).map f
  refine List.Perm.eq_of_pairwise (fun x y _ _ hxy hyx => ?_) (hsorted speed ids)
    (hsorted speed' ids') ((hperm speed ids).trans (h.trans (hperm speed' ids').symm))
  exact Binary64.rank_injective (le_antisymm hyx hxy)

end Ranking

namespace Pool

def speed (p : Pool) (w : WorkerId) : Binary64 := (p.speed? w).getD 0

/-- The created workers by rank. -/
def crew (p : Pool) (created : WorkerId → Bool) : List WorkerId :=
  fastestFirst p.speed ((List.range p.size).filter created)

theorem crew_nodup (p : Pool) (created : WorkerId → Bool) : (p.crew created).Nodup :=
  (fastestFirst_perm _).nodup_iff.mpr (List.nodup_range.filter _)

theorem mem_crew_iff {p : Pool} {created : WorkerId → Bool} {w : WorkerId} :
    w ∈ p.crew created ↔ w < p.size ∧ created w = true := by
  rw [crew, (fastestFirst_perm _).mem_iff, List.mem_filter, List.mem_range]

theorem crew_congr {p q : Pool} (hsize : q.size = p.size) (hspeed : ∀ w, q.speed? w = p.speed? w)
    (created : WorkerId → Bool) : q.crew created = p.crew created := by
  have hs : q.speed = p.speed := funext fun w => by rw [speed, speed, hspeed]
  rw [crew, crew, hs, hsize]

theorem Numbered.worker?_id {p : Pool} (h : p.Numbered) {x : Worker} (hx : x ∈ p.workers.toList) :
    p.worker? x.id = some x := by
  obtain ⟨i, hi⟩ := Array.mem_iff_getElem?.mp (Array.mem_toList_iff.mp hx)
  rwa [h i x hi]

theorem Numbered.idle_eq_fastestFirst {p : Pool} (h : p.Numbered) :
    p.idle = fastestFirst p.speed ((p.workers.toList.filter (·.isIdle)).map (·.id)) := by
  refine List.map_mergeSort fun x hx y hy => ?_
  have hx := h.worker?_id (List.mem_of_mem_filter hx)
  have hy := h.worker?_id (List.mem_of_mem_filter hy)
  simp [Worker.precedes, outranks, speed, speed?, hx, hy]

theorem Numbered.idle_pairwise {p : Pool} (h : p.Numbered) :
    p.idle.Pairwise fun v w => outranks p.speed v w := by
  rw [h.idle_eq_fastestFirst]
  exact fastestFirst_pairwise _

/-- The idle workers are those of the crew that hold no task. -/
theorem Numbered.idle_eq {p : Pool} (h : p.Numbered) {created : WorkerId → Bool}
    (ha : ∀ w < p.size, p.status? w = some .available ↔ created w = true) :
    p.idle = (p.crew created).filter fun w => (p.holds? w).isNone := by
  have hidle : ∀ x ∈ p.workers.toList,
      x.isIdle = (created x.id && (p.holds? x.id).isNone) := by
    intro x hx
    have hw := h.worker?_id hx
    have hc := ha x.id (worker?_lt hw)
    rw [status?, hw] at hc
    have hcreated : decide (x.status = .available) = created x.id := by
      rw [Bool.eq_iff_iff, decide_eq_true_eq, ← hc]
      simp
    rw [Worker.isIdle, hcreated, holds?, hw]
    rfl
  have hids : (p.workers.toList.filter (·.isIdle)).map (·.id) =
      ((List.range p.size).filter created).filter fun w => (p.holds? w).isNone := by
    rw [List.filter_filter, ← h.ids, List.filter_map]
    refine congrArg _ (List.filter_congr fun x hx => ?_)
    rw [hidle x hx, Bool.and_comm]
    rfl
  rw [h.idle_eq_fastestFirst, hids, crew, fastestFirst_filter]

end Pool

end Makespan
