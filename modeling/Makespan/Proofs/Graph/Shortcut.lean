import Makespan.Proofs.Graph.Derived

/-! Shortcuts. An edge from a task to one that it comes before anyway leaves all levels and descendants
as they are, so that every policy ranks as without it. -/

namespace Makespan.Graph

/-- The second graph has the tasks and edges of the first one, in the same order, and perhaps one more
edge, from `p` to `c`. -/
structure Shortcut (p c : TaskKey) (g g' : Graph) : Prop where
  tasks : g'.nodes.toList.map (·.task) = g.nodes.toList.map (·.task)
  key? : g'.key? = g.key?
  children : ∀ k, (g'.children k).filter (fun j => ¬ (k = p ∧ j = c)) = g.children k
  parents : ∀ k, (g'.parents k).filter (fun j => ¬ (j = p ∧ k = c)) = g.parents k

variable {p c : TaskKey} {g g' : Graph}

namespace Shortcut

theorem refl (hg : g.WellFormed) (h : p ∉ g.parents c) : Shortcut p c g g where
  tasks := rfl
  key? := rfl
  children k := by
    refine List.filter_eq_self.mpr fun j hj => decide_eq_true fun hjk => h ?_
    obtain ⟨rfl, rfl⟩ := hjk
    exact (hg.mirror _ _).mp hj
  parents k := by
    refine List.filter_eq_self.mpr fun j hj => decide_eq_true fun hjk => h ?_
    obtain ⟨rfl, rfl⟩ := hjk
    exact hj

theorem size (h : Shortcut p c g g') : g'.size = g.size := by
  simpa [Graph.size] using congrArg List.length h.tasks

theorem map_const_eq (h : Shortcut p c g g') {α : Type} {a b : α} {k : TaskKey}
    (hab : k < g.size → b = a) :
    g'.nodes[k]?.map (fun _ => b) = g.nodes[k]?.map fun _ => a := by
  by_cases hk : k < g.size
  · obtain ⟨n, hn⟩ := exists_node hk
    obtain ⟨n', hn'⟩ := exists_node (h.size.symm ▸ hk)
    rw [hn, hn', hab hk]
    rfl
  · have hk' : ¬ k < g'.size := h.size ▸ hk
    rw [Array.getElem?_eq_none (not_lt.mp hk), Array.getElem?_eq_none (not_lt.mp hk')]
    rfl

theorem of_outline (h : Shortcut p c g g') {g₁ g₁' : Graph} (ho : g₁.outline = g.outline)
    (ho' : g₁'.outline = g'.outline) : Shortcut p c g₁ g₁' where
  tasks := by
    rw [tasks_of_outline ho, tasks_of_outline ho']
    exact h.tasks
  key? := by
    rw [key?_of_outline ho, key?_of_outline ho']
    exact h.key?
  children k := by rw [children_of_outline ho, children_of_outline ho']; exact h.children k
  parents k := by rw [parents_of_outline ho, parents_of_outline ho']; exact h.parents k

/-- Any other edge may be added to both graphs. -/
theorem link (h : Shortcut p c g g') {q d : TaskKey} (hq : q < g.size) (hd : d < g.size)
    (hne : ¬ (q = p ∧ d = c)) : Shortcut p c (g.link q d) (g'.link q d) := by
  have hmem : d ∈ g.children q ↔ d ∈ g'.children q := by
    rw [← h.children, List.mem_filter, decide_eq_true_eq]
    exact and_iff_left hne
  refine ⟨by rw [tasks_link, tasks_link]; exact h.tasks, by rw [key?_link, key?_link]; exact h.key?,
    fun k => ?_, fun k => ?_⟩
  · rw [children_link (h.size ▸ hq), children_link hq]
    simp only [hmem]
    split
    · rename_i hk
      obtain ⟨rfl, -⟩ := hk
      rw [List.filter_append, h.children]
      simpa using not_and_or.mp hne
    · exact h.children k
  · rw [parents_link (h.size ▸ hd), parents_link hd]
    simp only [hmem]
    split
    · rename_i hk
      obtain ⟨rfl, -⟩ := hk
      rw [List.filter_append, h.parents]
      simpa using not_and_or.mp hne
    · exact h.parents k

/-- The shortcut itself may be added to the second graph. -/
theorem link_right (h : Shortcut p c g g') (hp : p < g.size) (hc : c < g.size) :
    Shortcut p c g (g'.link p c) := by
  refine ⟨(tasks_link g' p c).trans h.tasks, (key?_link g' p c).trans h.key?, fun k => ?_,
    fun k => ?_⟩
  · rw [children_link (h.size ▸ hp)]
    split
    · rename_i hk
      obtain ⟨rfl, -⟩ := hk
      rw [List.filter_append, h.children]
      simp
    · exact h.children k
  · rw [parents_link (h.size ▸ hc)]
    split
    · rename_i hk
      obtain ⟨rfl, -⟩ := hk
      rw [List.filter_append, h.parents]
      simp
    · exact h.parents k

/-! ## What comes before what -/

theorem mem_parents_iff (h : Shortcut p c g g') {j k : TaskKey} :
    j ∈ g.parents k ↔ j ∈ g'.parents k ∧ ¬ (j = p ∧ k = c) := by
  rw [← h.parents, List.mem_filter, decide_eq_true_eq]

theorem mem_parents_cases (h : Shortcut p c g g') {j k : TaskKey} (hj : j ∈ g'.parents k) :
    j ∈ g.parents k ∨ j = p ∧ k = c := by
  by_cases hjk : j = p ∧ k = c
  · exact Or.inr hjk
  · exact Or.inl (h.mem_parents_iff.mpr ⟨hj, hjk⟩)

variable (h : Shortcut p c g g') (hpc : g.Ancestor p c)
include h hpc

theorem ancestor_of_mem {j k : TaskKey} (hj : j ∈ g'.parents k) : g.Ancestor j k := by
  rcases h.mem_parents_cases hj with hj | ⟨rfl, rfl⟩
  · exact .single hj
  · exact hpc

/-- There is a task in between. -/
theorem exists_between : ∃ q ∈ g.parents c, g.Ancestor p q := by
  obtain ⟨q, hpq, hq⟩ := Relation.TransGen.tail'_iff.mp hpc
  rcases Relation.reflTransGen_iff_eq_or_transGen.mp hpq with rfl | hpq
  · exact absurd ⟨rfl, rfl⟩ (h.mem_parents_iff.mp hq).2
  · exact ⟨q, hq, hpq⟩

/-- A shortcut makes no task an ancestor that is none without it. -/
theorem ancestor_iff {j k : TaskKey} : g'.Ancestor j k ↔ g.Ancestor j k :=
  ⟨Relation.TransGen.closed (fun _ _ hj => h.ancestor_of_mem hpc hj) j k,
    Relation.TransGen.mono (fun _ _ hj => (h.mem_parents_iff.mp hj).1) j k⟩

theorem parents_eq_nil_iff (k : TaskKey) : g'.parents k = [] ↔ g.parents k = [] := by
  simp only [List.eq_nil_iff_forall_not_mem]
  constructor
  · exact fun hk j hj => hk j (h.mem_parents_iff.mp hj).1
  · intro hk j hj
    obtain ⟨q, -, hq⟩ := Relation.TransGen.tail'_iff.mp (h.ancestor_of_mem hpc hj)
    exact hk q hq

theorem ready_eq (hg : g.WellFormed) (hg' : g'.WellFormed) :
    g'.nodes.map (·.ready) = g.nodes.map (·.ready) := by
  refine Array.ext_getElem? fun k => ?_
  rw [Array.getElem?_map, Array.getElem?_map]
  by_cases hk : k < g.size
  · obtain ⟨n, hn⟩ := exists_node hk
    obtain ⟨n', hn'⟩ := exists_node (h.size.symm ▸ hk)
    have hr := hg.ready_iff n (Array.mem_of_getElem? hn)
    have hr' := hg'.ready_iff n' (Array.mem_of_getElem? hn')
    rw [← parents_of_getElem? hn, ← h.parents_eq_nil_iff hpc, parents_of_getElem? hn', ← hr'] at hr
    rw [hn, hn', Option.map_some, Option.map_some, Bool.eq_iff_iff.mpr hr]
  · have hk' : ¬ k < g'.size := h.size ▸ hk
    rw [Array.getElem?_eq_none (not_lt.mp hk), Array.getElem?_eq_none (not_lt.mp hk')]

theorem acyclic (ha : g.Acyclic) : g'.Acyclic := by
  obtain ⟨number, hn⟩ := ha
  exact ⟨number, fun j k hj => (h.ancestor_of_mem hpc hj).lt_of_edges hn⟩

/-! ## Levels and descendants -/

variable (hg : g.WellFormed) (hg' : g'.WellFormed) (hu : g.Underived) (hu' : g'.Underived)
  (ha : g.Acyclic)
include hg hg' hu hu' ha

theorem levels_eq {k : TaskKey} (hk : k < g.size) :
    (g'.levelPass g'.findRoots).levels[k]? = (g.levelPass g.findRoots).levels[k]? := by
  obtain ⟨level, hlevel, hle⟩ := ha.exists_levels hg hu
  obtain ⟨level', hlevel', hle'⟩ := (h.acyclic hpc ha).exists_levels hg' hu'
  -- levels grow from ancestor to descendant, so that the shortcut asks for nothing new
  have hlt : ∀ j k, j ∈ g.parents k → level j < level k := by
    intro j k hj
    exact ((hle k (hg.child_lt ((hg.mirror j k).mpr hj)) _).mp le_rfl).2 j hj
  have heq : ∀ k < g.size, level' k = level k := by
    obtain ⟨number, hn⟩ := h.acyclic hpc ha
    intro k hk
    induction hm : number k using Nat.strong_induction_on generalizing k with
    | _ m ih =>
      subst hm
      refine eq_of_forall_ge_iff fun bound => ?_
      have hsame : ∀ j ∈ g'.parents k, level' j = level j := fun j hj =>
        ih (number j) (hn j k hj) j (h.size ▸ hg'.parent_lt hj) rfl
      rw [hle' k (h.size.symm ▸ hk), hle k hk]
      refine and_congr_right fun hpos => ?_
      constructor
      · intro hb j hj
        have hj' := (h.mem_parents_iff.mp hj).1
        rw [← hsame j hj']
        exact hb j hj'
      · intro hb j hj
        rw [hsame j hj]
        exact ((h.ancestor_of_mem hpc hj).lt_of_edges hlt).trans_le
          ((hle k hk bound).mpr ⟨hpos, hb⟩)
  rw [hlevel k hk, hlevel' k (h.size.symm ▸ hk), heq k hk]

theorem descendants_eq {k : TaskKey} (hk : k < g.size) :
    (g'.descendantPass g'.findTails).sets[k]? = (g.descendantPass g.findTails).sets[k]? := by
  obtain ⟨set, hset, hmem⟩ := exists_descendants hg hu ha.not_ancestor_self hk
  obtain ⟨set', hset', hmem'⟩ :=
    exists_descendants hg' hu' (h.acyclic hpc ha).not_ancestor_self (h.size.symm ▸ hk)
  rw [hset, hset']
  refine congrArg some (KeySet.ext fun j => ?_)
  rw [hmem, hmem', h.ancestor_iff hpc]

/-- Every policy ranks alike on both graphs. -/
theorem rankOf_preprocess {policy : Policy} {g₁ g₁' : Graph}
    (h₁ : g.preprocess policy.required = .ok g₁) (h₁' : g'.preprocess policy.required = .ok g₁')
    (k : TaskKey) : policy.rankOf g₁' k = policy.rankOf g₁ k := by
  have ht : g'.nodes[k]?.map (·.task) = g.nodes[k]?.map (·.task) := by
    simpa using congrArg (·[k]?) h.tasks
  obtain ⟨-, rfl⟩ := preprocess_eq_ok_iff.mp h₁
  obtain ⟨-, rfl⟩ := preprocess_eq_ok_iff.mp h₁'
  have hb : Shortcut p c g.bounded g'.bounded := h.of_outline rfl rfl
  have hw : g.bounded.WellFormed := hg.of_outline rfl
  have hw' : g'.bounded.WellFormed := hg'.of_outline rfl
  cases policy with
  | shortestFirst => exact rankOf_congr ht (fun hc => by cases hc) fun hc => by cases hc
  | levelBased =>
    refine rankOf_congr (g := g.bounded.deriveLevels) ?_ (fun _ => ?_) fun hc => by cases hc
    · exact (task_of_outline (outline_deriveLevels _) k).trans
        (ht.trans (task_of_outline (outline_deriveLevels g.bounded) k).symm)
    · refine (level_deriveLevels _ k).trans (Eq.trans ?_ (level_deriveLevels _ k).symm)
      refine h.map_const_eq fun hk => ?_
      rw [Array.getD_eq_getD_getElem?, Array.getD_eq_getD_getElem?]
      exact congrArg (·.getD none) (hb.levels_eq hpc hw hw' hu hu' ha hk)
  | subsequentTasks =>
    refine rankOf_congr (g := g.bounded.deriveDescendants) ?_ (fun hc => by cases hc) fun _ => ?_
    · exact (task_of_outline (outline_deriveDescendants _) k).trans
        (ht.trans (task_of_outline (outline_deriveDescendants g.bounded) k).symm)
    · refine (descendants_deriveDescendants _ k).trans
        (Eq.trans ?_ (descendants_deriveDescendants _ k).symm)
      refine h.map_const_eq fun hk => ?_
      rw [Array.getD_eq_getD_getElem?, Array.getD_eq_getD_getElem?]
      exact congrArg (·.getD .empty) (hb.descendants_eq hpc hw hw' hu hu' ha hk)

end Shortcut

end Makespan.Graph
