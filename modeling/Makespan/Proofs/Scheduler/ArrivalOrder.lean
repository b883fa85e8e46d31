import Makespan.Proofs.Graph.Levels
import Makespan.Proofs.Scheduler.History
import Makespan.Proofs.StableSort

/-! The queue after a cycle. However often it was sorted before, and whatever was taken and released
between the sorts, it stands in one fixed order: by rank, and within a rank by arrival. -/

namespace Makespan

/-- What the tasks reported finished after `before` unlock one by one. -/
def Graph.unlocked (g : Graph) (before : List TaskKey) : List TaskKey → List TaskKey
  | [] => []
  | k :: rest => g.unlocks before k ++ g.unlocked (before ++ [k]) rest

/-- The order in which tasks become ready: the roots as they were declared, then for each finished
task the children that it unlocks. -/
def Graph.arrivalOrder (g : Graph) (finished : List TaskKey) : List TaskKey :=
  g.findRoots ++ g.unlocked [] finished

theorem Graph.unlocked_snoc (g : Graph) (before finished : List TaskKey) (k : TaskKey) :
    g.unlocked before (finished ++ [k]) =
      g.unlocked before finished ++ g.unlocks (before ++ finished) k := by
  induction finished generalizing before with
  | nil => simp [unlocked]
  | cons j finished ih => simp [unlocked, ih]

theorem Graph.arrivalOrder_snoc (g : Graph) (finished : List TaskKey) (k : TaskKey) :
    g.arrivalOrder (finished ++ [k]) = g.arrivalOrder finished ++ g.unlocks finished k := by
  rw [arrivalOrder, arrivalOrder, unlocked_snoc, List.nil_append, List.append_assoc]

theorem Graph.arrivalOrder_of_outline {g g' : Graph} (h : g'.outline = g.outline)
    (finished : List TaskKey) : g'.arrivalOrder finished = g.arrivalOrder finished := by
  have hp : g'.parents = g.parents := funext (parents_of_outline h)
  have hc : g'.children = g.children := funext (children_of_outline h)
  have hu : g'.unlocked = g.unlocked := by
    funext before ks
    induction ks generalizing before with
    | nil => rfl
    | cons k ks ih => simp only [unlocked, unlocks, hp, hc, ih]
  rw [arrivalOrder, arrivalOrder, hu, findRoots, findRoots, hp, size_of_outline h]

/-- In a list without repeats, what stands further in front has the smaller index. -/
theorem idxOf_lt_of_sublist {l : List TaskKey} (hn : l.Nodup) {a b : TaskKey}
    (h : [a, b].Sublist l) : l.idxOf a < l.idxOf b := by
  have hl : l.Pairwise fun a b => l.idxOf a < l.idxOf b := by
    rw [List.pairwise_iff_getElem]
    intro i j hi hj hij
    rwa [hn.idxOf_getElem i hi, hn.idxOf_getElem j hj]
  exact List.pairwise_iff_forall_sublist.mp hl h

namespace Scheduler

/-! ## The queue between two cycles -/

/-- A new scheduler has the preprocessed graph and its roots. -/
theorem preprocess_of_new {g : Graph} {policy : Policy} {s : Scheduler}
    (h : new g policy = .ok s) : g.preprocess policy.required = .ok s.graph ∧
      s.queue = s.graph.roots ∧ s.arrivals = [] := by
  obtain ⟨g', hp, hs⟩ := bind_eq_ok_iff.mp h
  unfold seeded at hs
  split at hs
  · obtain rfl := Except.ok.inj hs
    exact ⟨hp, rfl, rfl⟩
  · cases hs

/-- A recorded scheduler whose tasks wait in such an order that those of one rank stand as they
arrived. -/
structure InOrder (s : Scheduler) (history : List Entry) : Prop where
  recorded : s.Recorded history
  arrived : s.graph.arrivalOrder (finished history) = s.graph.findRoots ++ released history
  ties : (s.queue ++ s.arrivals).Pairwise fun a b =>
    s.policy.rankOf s.graph a = s.policy.rankOf s.graph b →
      [a, b].Sublist (s.graph.arrivalOrder (finished history))

namespace InOrder

variable {s : Scheduler} {history : List Entry}

/-- What is ready is what has arrived. -/
theorem mem_arrivalOrder (h : s.InOrder history) {k : TaskKey} :
    k ∈ s.graph.arrivalOrder (finished history) ↔ s.isReady k = true := by
  rw [h.arrived, List.mem_append, Graph.mem_findRoots, h.recorded.released_iff,
    h.recorded.accounted.ready_iff]
  constructor
  · rintro (⟨hk, hp⟩ | ⟨hready, -⟩)
    · exact ⟨hk, fun p hm => by rw [hp] at hm; cases hm⟩
    · exact hready
  · intro hready
    by_cases hp : s.graph.parents k = []
    · exact Or.inl ⟨hready.1, hp⟩
    · exact Or.inr ⟨hready, hp⟩

theorem nodup (h : s.InOrder history) :
    (s.graph.arrivalOrder (finished history)).Nodup := by
  rw [h.arrived, List.nodup_append]
  refine ⟨s.graph.findRoots_nodup, h.recorded.released_nodup, fun a ha b hb hab => ?_⟩
  exact ((h.recorded.released_iff b).mp hb).2 (hab ▸ (Graph.mem_findRoots.mp ha).2)

theorem cycle_ties (h : s.InOrder history) :
    s.cycle.queue.Pairwise fun a b =>
      s.policy.rankOf s.graph a < s.policy.rankOf s.graph b ∨
        s.policy.rankOf s.graph a = s.policy.rankOf s.graph b ∧
          [a, b].Sublist (s.graph.arrivalOrder (finished history)) :=
  (StableSorted.mergeSort _ _).pairwise_of_ties h.ties

theorem of_new {g : Graph} (hg : g.preprocessed = false) {policy : Policy}
    (hs : new g policy = .ok s) (ho : s.graph.outline = g.outline) (h : s.Recorded []) :
    s.InOrder [] := by
  obtain ⟨hp, hq, ha⟩ := preprocess_of_new hs
  obtain ⟨g', hp', -, -, hr⟩ := Graph.preprocess_ok hg policy.required
  obtain rfl : s.graph = g' := Except.ok.inj (hp.symm.trans hp')
  have hroots : s.graph.findRoots = g.findRoots := by
    have harr := Graph.arrivalOrder_of_outline ho []
    simpa [Graph.arrivalOrder, Graph.unlocked] using harr
  refine ⟨h, rfl, ?_⟩
  rw [hq, ha, hr, List.append_nil, ← hroots, List.pairwise_iff_forall_sublist]
  intro a b hab _
  exact hab.trans (List.sublist_append_left _ _)

/-- A call that executes nothing leaves the arrivals as they are. -/
theorem of_quiet (h : s.InOrder history) {s' : Scheduler} {e : Entry}
    (hgraph : s'.graph = s.graph) (hpolicy : s'.policy = s.policy) (hf : e.finished? = none)
    (hr : e.released = []) (hrec : s'.Recorded (history ++ [e]))
    (hties : (s'.queue ++ s'.arrivals).Pairwise fun a b =>
      s.policy.rankOf s.graph a = s.policy.rankOf s.graph b →
        [a, b].Sublist (s.graph.arrivalOrder (finished history))) : s'.InOrder (history ++ [e]) := by
  have hfin : finished (history ++ [e]) = finished history := by simp [finished_snoc, hf]
  have hrel : released (history ++ [e]) = released history := by simp [released_snoc, hr]
  refine ⟨hrec, ?_, ?_⟩
  · rw [hgraph, hfin, hrel]; exact h.arrived
  · rw [hgraph, hpolicy, hfin]; exact hties

theorem finish (h : s.InOrder history) {k : TaskKey}
    (hrec : (s.finish k).Recorded
      (history ++ [.finished k (s.graph.unlocks (finished history) k)]))
    (hunlock : (s.markExecuted k).releasable k = s.graph.unlocks (finished history) k) :
    (s.finish k).InOrder (history ++ [.finished k (s.graph.unlocks (finished history) k)]) := by
  have hfin : finished (history ++ [.finished k (s.graph.unlocks (finished history) k)]) =
      finished history ++ [k] := finished_snoc _ _
  have hrel : released (history ++ [.finished k (s.graph.unlocks (finished history) k)]) =
      released history ++ s.graph.unlocks (finished history) k := released_snoc _ _
  have hgraph : (s.finish k).graph = s.graph := rfl
  refine ⟨hrec, ?_, ?_⟩
  · rw [hgraph, hfin, hrel, Graph.arrivalOrder_snoc, h.arrived, List.append_assoc]
  · have hold : ∀ a, a ∈ s.queue ++ s.arrivals →
        [a].Sublist (s.graph.arrivalOrder (finished history)) := by
      intro a ha
      refine List.singleton_sublist.mpr (h.mem_arrivalOrder.mpr ?_)
      refine (h.recorded.accounted.mem_iff a).mp ?_
      rw [List.append_assoc]
      exact List.mem_append_right _ ha
    have hqueue : (s.finish k).queue ++ (s.finish k).arrivals =
        s.queue ++ s.arrivals ++ s.graph.unlocks (finished history) k := by
      rw [List.append_assoc, ← hunlock]
      rfl
    rw [hgraph, hfin, Graph.arrivalOrder_snoc, hqueue, List.pairwise_append]
    refine ⟨h.ties.imp fun hab he => (hab he).trans (List.sublist_append_left _ _), ?_, ?_⟩
    · rw [List.pairwise_iff_forall_sublist]
      intro a b hab _
      exact hab.trans (List.sublist_append_right _ _)
    · intro a ha b hb _
      exact (hold a ha).append (List.singleton_sublist.mpr hb)

/-- Every call keeps the tasks in order. -/
theorem call {n : Nat} (h : s.InOrder history) (hn : s.graph.size = n) (c : Call n) :
    (s.call c).1.InOrder (history ++ [(s.call c).2]) := by
  have hrec := h.recorded.call hn c
  obtain hc | hc | ⟨k, rest, hq, hc⟩ | ⟨k, -, hc⟩ | ⟨k, -, -, hunlock, hc⟩ :=
    h.recorded.call_cases hn c <;> rw [hc] at hrec ⊢
  · refine h.of_quiet rfl rfl rfl rfl hrec ?_
    -- what was sorted by rank and arrival has its ties in order of arrival
    show (s.cycle.queue ++ []).Pairwise _
    rw [List.append_nil]
    exact h.cycle_ties.imp fun hab he => (hab.resolve_left (by rw [he]; exact lt_irrefl _)).2
  · exact h.of_quiet rfl rfl rfl rfl hrec h.ties
  · refine h.of_quiet rfl rfl rfl rfl hrec ?_
    have hties := h.ties
    rw [hq, List.cons_append, List.pairwise_cons] at hties
    exact hties.2
  · exact h.of_quiet rfl rfl rfl rfl hrec h.ties
  · exact h.finish hrec hunlock

theorem after {n : Nat} (h : s.InOrder []) (hn : s.graph.size = n)
    (calls : List (Call n)) : (s.after calls).1.InOrder (s.after calls).2 ∧
      (s.after calls).1.graph = s.graph ∧ (s.after calls).1.policy = s.policy := by
  refine after_induct (I := fun t history => t.InOrder history ∧ t.graph = s.graph ∧
    t.policy = s.policy) (fun t history c ht => ?_) ⟨h, rfl, rfl⟩ calls
  obtain ⟨ht, hg, hp⟩ := ht
  obtain ⟨hg', hp'⟩ := ht.recorded.setup_call (hg ▸ hn) c
  exact ⟨ht.call (hg ▸ hn) c, hg'.trans hg, hp'.trans hp⟩

/-- A cycle queues all that has arrived and was not taken. -/
theorem cycle_perm (h : s.InOrder history) : s.cycle.queue.Perm
    ((s.graph.arrivalOrder (finished history)).filter (· ∉ taken history)) := by
  have hcycle := h.recorded.accounted.cycle
  refine (List.perm_ext_iff_of_nodup hcycle.queue_nodup (h.nodup.filter _)).mpr fun k => ?_
  rw [List.mem_filter, h.mem_arrivalOrder, decide_eq_true_eq, h.recorded.accounted.ready_iff]
  exact hcycle.mem_queue_iff rfl

end InOrder

end Scheduler

/-! ## The order of all ready tasks -/

/-- What a policy sorts by, the smallest first: the runtime in the total order of all values; the
level, for which a task without one has the highest number of 32 bits; the number of descendants,
the most first. -/
def Graph.sortKey (g : Graph) (k : TaskKey) : Policy → Int
  | .shortestFirst => (g.nodes[k]?).elim 0 (·.task.runtime.rank)
  | .levelBased => (g.level? k).getD 0xffffffff
  | .subsequentTasks => -((g.nodes[k]?).elim 0 (·.descendants.size) : Nat)

theorem Graph.rankOf_eq {g : Graph} {k : TaskKey} (hk : k < g.size) (policy : Policy) :
    policy.rankOf g k = g.sortKey k policy := by
  obtain ⟨n, hn⟩ := exists_node hk
  cases policy <;> simp [Policy.rankOf, Policy.rank, sortKey, level?, hn, Policy.lastLevel]

/-- By key, and for one key by arrival. -/
def Graph.Precedes (g : Graph) (policy : Policy) (arrival : List TaskKey) (a b : TaskKey) : Prop :=
  g.sortKey a policy < g.sortKey b policy ∨
    g.sortKey a policy = g.sortKey b policy ∧ arrival.idxOf a < arrival.idxOf b

/-- A task without a level comes after every task with one, unless there are more tasks than 32 bits
can count. -/
theorem Scheduler.unleveled_last {g : Graph} (hnone : ∀ n ∈ g.nodes, n.level = none)
    {policy : Policy} {s : Scheduler} (h : Scheduler.new g policy = .ok s)
    (hsize : g.size + 1 < 0xffffffff) {a b : TaskKey} {l : Nat}
    (ha : s.graph.level? a = some l) (hb : s.graph.level? b = none) :
    s.graph.sortKey a .levelBased < s.graph.sortKey b .levelBased := by
  obtain ⟨n, hn, hl⟩ := Option.bind_eq_some_iff.mp ha
  have hle := Graph.level_le_of_preprocess hnone (preprocess_of_new h).1
    (Array.mem_of_getElem? hn) hl
  simp only [Graph.sortKey, ha, hb, Option.getD_some, Option.getD_none]
  omega

namespace Scheduler

/-- Whatever the graph and the policy are, after any calls a cycle leaves just the tasks that have
become ready and were not taken, each once, by key and for one key by arrival. -/
theorem cycle_orders_by_key_and_arrival (ds : List Graph.Declaration) (policy : Policy) :
    ∃ s, new (.ofDeclarations ds) policy = .ok s ∧
      ((Graph.ofDeclarations ds).size + 1 < 0xffffffff → ∀ a b,
        s.graph.level? a ≠ none → s.graph.level? b = none →
          s.graph.sortKey a .levelBased < s.graph.sortKey b .levelBased) ∧
      ∀ calls : List (Call (Graph.ofDeclarations ds).size),
        let t := (s.after calls).1
        let history := (s.after calls).2
        let arrival := (Graph.ofDeclarations ds).arrivalOrder (finished history)
        arrival.Nodup ∧ (∀ k, k ∈ arrival ↔ t.isReady k = true) ∧
          t.cycle.queue.Perm (arrival.filter (· ∉ taken history)) ∧
          t.cycle.queue.Pairwise (s.graph.Precedes policy arrival) := by
  have hpre := Graph.preprocessed_ofDeclarations ds
  obtain ⟨s, hs, ho, hp, hrec⟩ := new_recorded_of_declarations ds policy
  refine ⟨s, hs, fun hsize a b ha hb => ?_, fun calls => ?_⟩
  · obtain ⟨l, hl⟩ := Option.ne_none_iff_exists'.mp ha
    exact unleveled_last (Graph.level_ofDeclarations ds) hs hsize hl hb
  obtain ⟨h, hg, hp'⟩ := (InOrder.of_new hpre hs ho hrec).after (Graph.size_of_outline ho) calls
  have harr := Graph.arrivalOrder_of_outline (hg ▸ ho) (finished (s.after calls).2)
  have hn := h.nodup
  have hm := fun k => h.mem_arrivalOrder (k := k)
  have hperm := h.cycle_perm
  have hties := h.cycle_ties
  have hlt : ∀ k ∈ (s.after calls).1.cycle.queue, k < s.graph.size := fun k hk =>
    hg ▸ ((h.recorded.accounted.cycle.mem_queue_iff rfl).mp hk).1.1
  rw [harr] at hn hperm hties
  rw [hp', hp, hg] at hties
  refine ⟨hn, fun k => harr ▸ hm k, hperm, hties.imp_of_mem fun ha hb hab => ?_⟩
  rw [Graph.rankOf_eq (hlt _ ha), Graph.rankOf_eq (hlt _ hb)] at hab
  exact hab.imp_right fun he => ⟨he.1, idxOf_lt_of_sublist hn he.2⟩

end Scheduler

end Makespan
