import Makespan.Proofs.Broker.StandIn
import Makespan.Proofs.Graph.Shortcut

/-! Runs with a shortcut. By the time that the parents of a task are executed, all its ancestors are;
so an edge from one of them lets nothing go later, and a run takes the same course as without it. -/

namespace Makespan

variable {p c : TaskKey} {g g' : Graph}

/-- A scheduler is made on a graph with a shortcut as without it. -/
theorem Graph.Shortcut.scheduler (h : g.Shortcut p c g') (hpc : g.Ancestor p c) (hg : g.WellFormed)
    (hg' : g'.WellFormed) (hu : g.Underived) (hu' : g'.Underived) (ha : g.Acyclic)
    (hnew : g'.preprocessed = false) {policy : Policy} {s : Scheduler}
    (hs : Scheduler.new g policy = .ok s) :
    ∃ g₁, Scheduler.new g' policy = .ok (s.on g₁) ∧ s.graph.Shortcut p c g₁ ∧
      s.graph.StandIn s.policy sameName g₁ ∧ s.graph.Ancestor p c := by
  obtain ⟨g₀, h₀, hseed⟩ := bind_eq_ok_iff.mp hs
  have hnew₀ := (Graph.preprocess_eq_ok_iff.mp h₀).1
  obtain ⟨g₁, h₁, ho₁, -, hr₁⟩ := Graph.preprocess_ok hnew₀ policy.required
  obtain rfl := Except.ok.inj (h₀.symm.trans h₁)
  obtain ⟨g₂, h₂, ho₂, hp₂, hr₂⟩ := Graph.preprocess_ok hnew policy.required
  have hnil := h.parents_eq_nil_iff hpc
  have hroots : g₂.roots = g₀.roots := by
    rw [hr₁, hr₂, Graph.findRoots, Graph.findRoots, h.size]
    refine List.filter_congr fun k _ => ?_
    rw [Bool.eq_iff_iff, List.isEmpty_iff, List.isEmpty_iff, hnil]
  have hready : g₂.nodes.map (·.ready) = g₀.nodes.map (·.ready) := by
    rw [Graph.ready_of_outline ho₁, Graph.ready_of_outline ho₂]
    exact h.ready_eq hpc hg hg'
  have hsc : g₀.Shortcut p c g₂ := h.of_outline ho₁ ho₂
  have hancestor : g₀.Ancestor p c := by
    have hparents : g₀.parents = g.parents := funext (Graph.parents_of_outline ho₁)
    unfold Graph.Ancestor
    rw [hparents]
    exact hpc
  obtain ⟨hseeded, rfl, rfl⟩ := Scheduler.seeded_on hseed hp₂ hroots hready
  exact ⟨g₂, bind_eq_ok_iff.mpr ⟨g₂, h₂, hseeded⟩, hsc,
    .of_tasks hsc.tasks (h.rankOf_preprocess hpc hg hg' hu hu' ha h₀ h₂), hancestor⟩

namespace Broker

variable {b d : Broker} {log : List Assignment}

namespace Accounted

/-- What comes before an assigned task was executed. -/
theorem ancestor_executed (h : b.Accounted log) {j k : TaskKey} (hk : k ∈ log.map (·.task))
    (hjk : b.scheduler.graph.Ancestor j k) : b.scheduler.isExecuted j = true := by
  induction hjk with
  | single hj => exact h.scheduler.parents_executed (List.mem_append_left _ hk) hj
  | tail _ hq ih =>
    have hx := h.scheduler.parents_executed (List.mem_append_left _ hk) hq
    obtain ⟨a, ha, rfl⟩ := h.executed_logged _ hx
    exact ih (List.mem_map_of_mem ha)

theorem isExecuted_markExecuted (h : b.Accounted log) {task : TaskKey}
    (ht : task ∈ log.map (·.task)) (j : TaskKey) :
    (b.scheduler.markExecuted task).isExecuted j = true ↔
      j = task ∨ b.scheduler.isExecuted j = true := by
  have hlt : task < b.scheduler.executed.size := by
    rw [h.scheduler.executed_size]
    exact h.scheduler.lt_of_taken ht
  exact Scheduler.isExecuted_finish hlt j

/-- Once a task is executed, its ancestors have been for some time. -/
theorem executed_early (h : b.Accounted log) {task : TaskKey} (ht : task ∈ log.map (·.task))
    {j k : TaskKey} (hjk : b.scheduler.graph.Ancestor j k)
    (hk : (b.scheduler.markExecuted task).isExecuted k = true) :
    b.scheduler.isExecuted j = true := by
  rcases (h.isExecuted_markExecuted ht k).mp hk with rfl | hk
  · exact h.ancestor_executed ht hjk
  · obtain ⟨a, ha, rfl⟩ := h.executed_logged k hk
    exact h.ancestor_executed (List.mem_map_of_mem ha) hjk

/-- A finished task lets go of the same children with a shortcut. -/
theorem releasesAlike (h : b.Accounted log) (hs : b.scheduler.graph.Shortcut p c g)
    (hpc : b.scheduler.graph.Ancestor p c) {task : TaskKey} (ht : task ∈ log.map (·.task))
    (hx : b.scheduler.isExecuted task = false) : b.scheduler.ReleasesAlike g task := by
  obtain ⟨q, hq, hpq⟩ := hs.exists_between hpc
  have hearly := h.executed_early ht hpq
  have hall : ∀ j, (g.parents j).all (b.scheduler.markExecuted task).isExecuted = true ↔
      (b.scheduler.graph.parents j).all (b.scheduler.markExecuted task).isExecuted = true := by
    intro j
    simp only [List.all_eq_true]
    constructor
    · exact fun hx i hi => hx i (hs.mem_parents_iff.mp hi).1
    · intro hx i hi
      rcases hs.mem_parents_cases hi with hi | ⟨rfl, rfl⟩
      · exact hx i hi
      · exact (h.isExecuted_markExecuted ht i).mpr (Or.inr (hearly (hx q hq)))
  unfold Scheduler.ReleasesAlike Scheduler.releasable
  show (g.children task).filter (fun j => !b.scheduler.isReady j &&
      (g.parents j).all (b.scheduler.markExecuted task).isExecuted) =
    (b.scheduler.graph.children task).filter fun j => !b.scheduler.isReady j &&
      (b.scheduler.graph.parents j).all (b.scheduler.markExecuted task).isExecuted
  rw [← hs.children task, List.filter_filter]
  refine List.filter_congr fun j _ => ?_
  rw [Bool.eq_iff_iff.mpr (hall j)]
  by_cases hj : task = p ∧ j = c
  · obtain ⟨rfl, rfl⟩ := hj
    have hlast : (b.scheduler.graph.parents j).all
        (b.scheduler.markExecuted task).isExecuted = false := by
      rw [← Bool.not_eq_true, List.all_eq_true]
      intro hx'
      rw [hearly (hx' q hq)] at hx
      cases hx
    rw [hlast]
    simp
  · simp [hj]

end Accounted

/-- A run takes the same course with a shortcut. -/
theorem run?_on_shortcut (h : b.Accounted []) (hs : b.scheduler.graph.Shortcut p c g)
    (hpc : b.scheduler.graph.Ancestor p c)
    (hin : b.scheduler.graph.StandIn b.scheduler.policy sameName g) (n : Nat)
    (provisioner : Provisioner) : (b.on g).run? n provisioner = b.run? n provisioner := by
  have hsame : (b.run? n provisioner).map (renameResult sameName) = b.run? n provisioner := by
    rw [funext renameResult_sameName, Option.map_id']
  rw [← under_sameName, run?_under h hin ?_ n provisioner, hsame]
  intro d log hbasis hd w task hheld
  obtain ⟨a, ha, rfl, -⟩ := hd.pool.held_logged w task hheld
  rw [← hbasis.graph] at hs hpc
  exact hd.releasesAlike hs hpc (List.mem_map_of_mem ha) (hd.pool.held_unexecuted w a.task hheld)

end Broker

end Makespan
