import Makespan.Proofs.Graph.WellFormed
import Makespan.Scheduler

/-! Every ready task is in one place. `Accounted s taken` says where the tasks of a scheduler are
when the tasks `taken` were taken from its queue so far: a task is ready when its parents are
executed, and a ready task was taken, is queued or has just arrived, and is nowhere twice. Each
operation keeps this, on cyclic graphs too, whatever order tasks are reported finished in. -/

namespace Makespan.Scheduler

structure Accounted (s : Scheduler) (taken : List TaskKey) : Prop where
  graph : s.graph.WellFormed
  ready_size : s.ready.size = s.graph.size
  executed_size : s.executed.size = s.graph.size
  ready_iff : ∀ k, s.isReady k = true ↔
    k < s.graph.size ∧ ∀ p ∈ s.graph.parents k, s.isExecuted p = true
  nodup : (taken ++ s.queue ++ s.arrivals).Nodup
  mem_iff : ∀ k, k ∈ taken ++ s.queue ++ s.arrivals ↔ s.isReady k = true
  count : s.executedCount = s.executed.count true

namespace Accounted

variable {s : Scheduler} {taken : List TaskKey}

theorem lt_of_taken (h : s.Accounted taken) {k : TaskKey} (hk : k ∈ taken) : k < s.graph.size :=
  ((h.ready_iff k).mp ((h.mem_iff k).mp (by simp [hk]))).1

theorem parents_executed (h : s.Accounted taken) {k p : TaskKey} (hk : k ∈ taken ++ s.queue)
    (hp : p ∈ s.graph.parents k) : s.isExecuted p = true :=
  ((h.ready_iff k).mp ((h.mem_iff k).mp (List.mem_append_left _ hk))).2 p hp

theorem not_queued (h : s.Accounted taken) {k : TaskKey} (hk : k ∈ taken) :
    k ∉ s.queue ∧ k ∉ s.arrivals := by
  have hd := h.nodup
  simp only [List.nodup_append, List.mem_append] at hd
  exact ⟨fun hq => hd.1.2.2 k hk k hq rfl, fun ha => hd.2.2 k (Or.inl hk) k ha rfl⟩

/-- Once arrivals are merged, all that is ready and was not taken is queued. -/
theorem mem_queue_iff (h : s.Accounted taken) (ha : s.arrivals = []) {k : TaskKey} :
    k ∈ s.queue ↔ (k < s.graph.size ∧ ∀ p ∈ s.graph.parents k, s.isExecuted p = true) ∧
      k ∉ taken := by
  rw [← h.ready_iff, ← h.mem_iff, ha, List.append_nil, List.mem_append]
  constructor
  · exact fun hq => ⟨Or.inr hq, fun ht => (h.not_queued ht).1 hq⟩
  · exact fun ⟨hk, ht⟩ => hk.resolve_left ht

theorem queue_nodup (h : s.Accounted taken) : s.queue.Nodup := by
  have hd := h.nodup
  simp only [List.nodup_append] at hd
  exact hd.1.2.1

end Accounted

/-! ## A new scheduler -/

/-- A graph that was not preprocessed gives a scheduler, with the roots in its queue. -/
theorem new_ok {g : Graph} (hg : g.WellFormed) (h : g.preprocessed = false) (policy : Policy) :
    ∃ s, new g policy = .ok s ∧ s.graph.outline = g.outline ∧ s.policy = policy ∧
      s.Accounted [] ∧ (∀ k, s.isExecuted k = false) ∧ s.executedCount = 0 := by
  obtain ⟨g', hp, ho, hpre, hr⟩ := Graph.preprocess_ok h policy.required
  have hw : g'.WellFormed := hg.of_outline ho
  have hnone : ∀ k, (g'.nodes.map fun _ => false).getD k false = false := by
    intro k
    simp only [Array.getD_eq_getD_getElem?, Array.getElem?_map]
    cases g'.nodes[k]? <;> rfl
  refine ⟨_, bind_eq_ok_iff.mpr ⟨g', hp, if_pos hpre⟩, ho, rfl, ?_, hnone, rfl⟩
  have hready : ∀ k, (g'.nodes.map (·.ready)).getD k false = true ↔
      k < g'.size ∧ g'.parents k = [] := by
    intro k
    by_cases hk : k < g'.size
    · obtain ⟨n, hn⟩ := Graph.exists_node hk
      have hi := hw.ready_iff n (Array.mem_of_getElem? hn)
      simp [Array.getD_eq_getD_getElem?, hn, hk, Graph.parents_of_getElem? hn, hi]
    · have hn : g'.nodes[k]? = none := Array.getElem?_eq_none (not_lt.mp hk)
      simp [Array.getD_eq_getD_getElem?, hn, hk]
  have hroots : ∀ k, k ∈ g'.roots ↔ k < g'.size ∧ g'.parents k = [] := by
    intro k
    rw [hr, Graph.mem_findRoots, Graph.size_of_outline ho, Graph.parents_of_outline ho]
  refine ⟨hw, by simp [Graph.size], by simp [Graph.size], fun k => ?_, ?_, fun k => ?_, ?_⟩
  · refine (hready k).trans (and_congr_right fun _ => ?_)
    simp [isExecuted, hnone, List.eq_nil_iff_forall_not_mem]
  · simpa [hr] using g.findRoots_nodup
  · simp only [List.nil_append, List.append_nil]
    exact (hroots k).trans (hready k).symm
  · symm
    simp only [Array.count_eq_zero, Array.mem_map, not_exists, not_and]
    exact fun _ _ hf => Bool.false_ne_true hf

/-! ## Cycles and takes -/

theorem order_perm (p : Policy) (g : Graph) (keys : List TaskKey) : (p.order g keys).Perm keys :=
  List.mergeSort_perm _ _

theorem Accounted.cycle {s : Scheduler} {taken : List TaskKey} (h : s.Accounted taken) :
    s.cycle.Accounted taken := by
  have hp : (taken ++ s.cycle.queue ++ s.cycle.arrivals).Perm
      (taken ++ s.queue ++ s.arrivals) := by
    simp only [Scheduler.cycle, List.append_nil, List.append_assoc]
    exact (order_perm _ _ _).append_left taken
  exact ⟨h.graph, h.ready_size, h.executed_size, h.ready_iff, hp.nodup_iff.mpr h.nodup,
    fun k => hp.mem_iff.trans (h.mem_iff k), h.count⟩

theorem Accounted.take {s : Scheduler} {taken rest : List TaskKey} {k : TaskKey}
    (h : s.Accounted taken) (hq : s.queue = k :: rest) :
    Accounted { s with queue := rest } (taken ++ [k]) := by
  have he : taken ++ [k] ++ rest ++ s.arrivals = taken ++ s.queue ++ s.arrivals := by simp [hq]
  exact ⟨h.graph, h.ready_size, h.executed_size, h.ready_iff, he ▸ h.nodup,
    fun j => he ▸ h.mem_iff j, h.count⟩

/-! ## Completions -/

/-- The first half of a completion. -/
def markExecuted (s : Scheduler) (k : TaskKey) : Scheduler :=
  { s with executed := s.executed.setIfInBounds k true, executedCount := s.executedCount + 1 }

/-- The second half of a completion. -/
def release (s : Scheduler) (ks : List TaskKey) : Scheduler :=
  { s with
    ready := ks.foldl (fun flags c => flags.setIfInBounds c true) s.ready
    arrivals := s.arrivals ++ ks }

/-- The scheduler after `k` was reported finished. -/
def finish (s : Scheduler) (k : TaskKey) : Scheduler :=
  (s.markExecuted k).release ((s.markExecuted k).releasable k)

theorem notify_of_executed {s : Scheduler} {k : TaskKey} (h : s.isExecuted k = true) :
    s.notify k = (s, .error (.alreadyExecuted (s.graph.id k))) := by simp [notify, h]

theorem notify_of_unexecuted {s : Scheduler} {k : TaskKey} (h : s.isExecuted k = false) :
    s.notify k = (s.finish k, .ok ((s.markExecuted k).releasable k)) := by
  simp [notify, h, finish, markExecuted, release]

/-- Raising the flag of one task. -/
theorem getD_setIfInBounds {flags : Array Bool} {k : TaskKey} (hk : k < flags.size) (j : TaskKey) :
    (flags.setIfInBounds k true).getD j false = true ↔ j = k ∨ flags.getD j false = true := by
  by_cases hj : k = j
  · subst hj; simp [Array.getD_eq_getD_getElem?, hk]
  · simp [Array.getD_eq_getD_getElem?, hj, Ne.symm hj]

theorem isExecuted_finish {s : Scheduler} {k : TaskKey} (hk : k < s.executed.size) (j : TaskKey) :
    (s.finish k).isExecuted j = true ↔ j = k ∨ s.isExecuted j = true :=
  getD_setIfInBounds hk j

/-- Raising the flags of several tasks. -/
theorem getD_foldl_set (ks : List TaskKey) (flags : Array Bool) (hks : ∀ k ∈ ks, k < flags.size)
    (j : TaskKey) :
    (ks.foldl (fun flags c => flags.setIfInBounds c true) flags).getD j false = true ↔
      j ∈ ks ∨ flags.getD j false = true := by
  induction ks generalizing flags with
  | nil => simp
  | cons k ks ih =>
    rw [List.foldl_cons, ih _ fun i hi => by simpa using hks i (List.mem_cons_of_mem k hi),
      getD_setIfInBounds (hks k (by simp)), List.mem_cons]
    tauto

theorem size_foldl_set (ks : List TaskKey) (flags : Array Bool) :
    (ks.foldl (fun flags c => flags.setIfInBounds c true) flags).size = flags.size := by
  induction ks generalizing flags with
  | nil => rfl
  | cons k ks ih => simp [ih]

/-- Every unexecuted task of the graph may be reported finished, taken or not. -/
theorem Accounted.finish {s : Scheduler} {taken : List TaskKey} (h : s.Accounted taken)
    {k : TaskKey} (hk : k < s.graph.size) (hne : s.isExecuted k = false) :
    (s.finish k).Accounted taken := by
  have hke : k < s.executed.size := h.executed_size ▸ hk
  let released := (s.markExecuted k).releasable k
  have hmem : ∀ c, c ∈ released ↔ c ∈ s.graph.children k ∧ s.isReady c = false ∧
      ∀ p ∈ s.graph.parents c, (s.finish k).isExecuted p = true := by
    intro c
    simp [released, releasable, markExecuted, Scheduler.finish, release, isReady, isExecuted]
  have hready : ∀ j, (s.finish k).isReady j = true ↔ j ∈ released ∨ s.isReady j = true :=
    getD_foldl_set released s.ready fun c hc =>
      h.ready_size ▸ h.graph.child_lt ((hmem c).mp hc).1
  refine ⟨h.graph, ?_, by simpa [Scheduler.finish, release, markExecuted] using h.executed_size,
    fun j => ?_, ?_, fun j => ?_, ?_⟩
  · exact (size_foldl_set released s.ready).trans h.ready_size
  · rw [hready, hmem, h.ready_iff]
    constructor
    · rintro (⟨hc, -, hp⟩ | ⟨hj, hp⟩)
      · exact ⟨h.graph.child_lt hc, hp⟩
      · exact ⟨hj, fun p hm => (isExecuted_finish hke p).mpr (Or.inr (hp p hm))⟩
    · rintro ⟨hj, hp⟩
      by_cases hr : ∀ p ∈ s.graph.parents j, s.isExecuted p = true
      · exact Or.inr ⟨hj, hr⟩
      -- some parent became executed just now, and that can only be `k`
      push Not at hr
      obtain ⟨p, hm, hpe⟩ := hr
      obtain rfl : p = k := ((isExecuted_finish hke p).mp (hp p hm)).resolve_right hpe
      have hnr : s.isReady j = false := by
        rw [← Bool.not_eq_true, h.ready_iff]
        exact fun hall => hpe (hall.2 p hm)
      exact Or.inl ⟨(h.graph.mirror p j).mpr hm, hnr, hp⟩
  · show (taken ++ s.queue ++ (s.arrivals ++ released)).Nodup
    rw [← List.append_assoc, List.nodup_append]
    refine ⟨h.nodup, (h.graph.children_nodup k).filter _, fun a ha b hb hab => ?_⟩
    have hr := (h.mem_iff a).mp ha
    rw [hab, ((hmem b).mp hb).2.1] at hr
    cases hr
  · show j ∈ taken ++ s.queue ++ (s.arrivals ++ released) ↔ _
    rw [← List.append_assoc, List.mem_append, h.mem_iff, hready, or_comm]
  · have hf : s.executed[k] = false := by
      simpa [isExecuted, Array.getD_eq_getD_getElem?, hke] using hne
    show s.executedCount + 1 = (s.executed.setIfInBounds k true).count true
    rw [Array.setIfInBounds, dif_pos hke, Array.count_set hke, hf, h.count]
    simp

/-- What remains is what was not executed. -/
theorem Accounted.remaining_eq {s : Scheduler} {taken : List TaskKey} (h : s.Accounted taken) :
    s.remaining = {k | k < s.graph.size ∧ s.isExecuted k = false}.ncard := by
  have hflags : s.executed.toList = (List.range s.graph.size).map s.isExecuted := by
    refine List.ext_getElem (by simp [h.executed_size]) fun k hk _ => ?_
    rw [Array.length_toList] at hk
    simp [isExecuted, Array.getD_eq_getD_getElem?, hk]
  have hcount : s.executedCount = (List.range s.graph.size).countP s.isExecuted := by
    rw [h.count, ← Array.count_toList, hflags, List.count, List.countP_map]
    exact List.countP_congr fun k _ => by simp
  have hset : {k | k < s.graph.size ∧ s.isExecuted k = false} =
      ((Finset.range s.graph.size).filter fun k => ¬ s.isExecuted k = true : Finset TaskKey) := by
    ext k
    simp
  have hcard : ((Finset.range s.graph.size).filter fun k => ¬ s.isExecuted k = true).card =
      (List.range s.graph.size).countP (fun k => ¬ s.isExecuted k = true) := by
    rw [List.countP_eq_length_filter]
    rfl
  have hsplit := List.length_eq_countP_add_countP s.isExecuted (l := List.range s.graph.size)
  rw [List.length_range] at hsplit
  rw [hset, Set.ncard_coe_finset, hcard, remaining, hcount]
  omega

/-- Work remains just as long as some task was not executed. -/
theorem Accounted.hasWork_iff {s : Scheduler} {taken : List TaskKey} (h : s.Accounted taken) :
    s.hasWork = true ↔ ∃ k < s.graph.size, s.isExecuted k = false := by
  have hfinite : {k | k < s.graph.size ∧ s.isExecuted k = false}.Finite :=
    (Set.finite_lt_nat s.graph.size).subset fun _ hk => hk.1
  have hpos : s.hasWork = true ↔ 0 < s.remaining := by
    rw [hasWork, decide_eq_true_iff, remaining]
    omega
  rw [hpos, h.remaining_eq, Set.ncard_pos hfinite]
  rfl

end Makespan.Scheduler
