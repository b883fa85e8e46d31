import Makespan.Proofs.Graph.WellFormed
import Makespan.Proofs.Workflow.CycleSearch
import Makespan.Simulation
import Makespan.Workflow.Validate

/-! Validated workflows and their graphs. Validation promises all that putting the graph together
asks for, so that this never fails; the graph has the jobs of the workflow as its tasks, in order,
and the declared pairs as its edges. -/

namespace Makespan

def Job.task (j : Job) (scale : Binary64) : Task := .new j.id j.space j.name j.runtime scale

namespace Workflow

structure Valid (w : Workflow) : Prop where
  jobs_ne : w.jobs ≠ []
  ids_nodup : w.ids.Nodup
  child_mem : ∀ d ∈ w.dependencies, d.child ∈ w.ids
  parent_mem : ∀ d ∈ w.dependencies, ∀ p ∈ d.parents, p ∈ w.ids
  parent_ne : ∀ d ∈ w.dependencies, ∀ p ∈ d.parents, p ≠ d.child
  no_cycle : w.digraph.onCycle? = none

theorem checkJobs_eq_ok_iff {seen : List String} {jobs : List Job} :
    checkJobs seen jobs = .ok () ↔ (jobs.map (·.id)).Nodup ∧ (∀ j ∈ jobs, j.id ∉ seen) ∧
      ∀ j ∈ jobs, j.runtime.isFinite = true ∧ j.runtime.lt 0 = false := by
  induction jobs generalizing seen with
  | nil => simp [checkJobs]
  | cons j jobs ih =>
    simp only [checkJobs, List.map_cons, List.nodup_cons, List.forall_mem_cons]
    by_cases hj : j.id ∈ seen
    · simp [hj]
    · by_cases hr : j.runtime.isFinite = true ∧ j.runtime.lt 0 = false
      · have hid : (∀ k ∈ jobs, k.id ∉ j.id :: seen) ↔
            j.id ∉ jobs.map (·.id) ∧ ∀ k ∈ jobs, k.id ∉ seen := by
          simp only [List.mem_cons, not_or, List.mem_map, not_exists, not_and]
          exact forall₂_and
        simp only [hj, hr.1, hr.2, Bool.not_true, Bool.or_self, Bool.false_eq_true, if_false,
          not_false_eq_true, and_self, true_and]
        rw [ih, hid]
        tauto
      · have hbad : (!j.runtime.isFinite || j.runtime.lt 0) = true := by
          simpa [or_iff_not_imp_left] using hr
        simp [hj, hr, hbad]

theorem checkParents_eq_ok_iff {ids : List String} {child : String} {parents : List String} :
    checkParents ids child parents = .ok () ↔ ∀ p ∈ parents, p ∈ ids ∧ p ≠ child := by
  induction parents with
  | nil => simp [checkParents]
  | cons p parents ih =>
    simp only [checkParents, List.forall_mem_cons]
    by_cases hp : p ∈ ids
    · by_cases hc : p = child
      · subst hc; simp [hp]
      · simp [hp, hc, ih]
    · simp [hp]

theorem checkDependencies_eq_ok_iff {ids : List String} {ds : List Dependency} :
    checkDependencies ids ds = .ok () ↔
      ∀ d ∈ ds, d.child ∈ ids ∧ ∀ p ∈ d.parents, p ∈ ids ∧ p ≠ d.child := by
  induction ds with
  | nil => simp [checkDependencies]
  | cons d ds ih =>
    rw [List.forall_mem_cons, ← ih, ← checkParents_eq_ok_iff]
    simp only [checkDependencies, unless_throw_eq_ok_iff, bind_eq_ok_iff, not_not, and_assoc]
    exact and_congr_right fun _ => ⟨fun ⟨_, h⟩ => h, fun h => ⟨(), h⟩⟩

theorem checkCycles_eq_ok_iff {w : Workflow} :
    w.checkCycles = .ok () ↔ w.digraph.onCycle? = none := by
  unfold checkCycles
  cases w.digraph.onCycle? <;> simp

theorem validate_sound {raw w : Workflow} (h : raw.validate = .ok w) : w.Valid := by
  simp only [validate, check, bind_eq_ok_iff, pure_eq_ok_iff, unless_throw_eq_ok_iff] at h
  obtain ⟨_, ⟨hne, _, hjobs, _, hdeps, hcycle⟩, rfl⟩ := h
  have hdeps := checkDependencies_eq_ok_iff.mp hdeps
  exact
    { jobs_ne := hne
      ids_nodup := (checkJobs_eq_ok_iff.mp hjobs).1
      child_mem := fun d hd => (hdeps d hd).1
      parent_mem := fun d hd p hp => ((hdeps d hd).2 p hp).1
      parent_ne := fun d hd p hp => ((hdeps d hd).2 p hp).2
      no_cycle := checkCycles_eq_ok_iff.mp hcycle }

theorem mem_pairs_iff {w : Workflow} {p c : String} :
    (p, c) ∈ w.pairs ↔ ∃ d ∈ w.dependencies, d.child = c ∧ p ∈ d.parents := by
  simp only [pairs, List.mem_flatMap, List.mem_map, Prod.mk.injEq]
  constructor
  · rintro ⟨d, hd, q, hq, rfl, rfl⟩; exact ⟨d, hd, rfl, hq⟩
  · rintro ⟨d, hd, rfl, hp⟩; exact ⟨d, hd, p, hp, rfl, rfl⟩

/-- Where all references are known and no job is its own parent, edges lead from job to other job. -/
theorem digraph_proper {w : Workflow} (hc : ∀ d ∈ w.dependencies, d.child ∈ w.ids)
    (hp : ∀ d ∈ w.dependencies, ∀ p ∈ d.parents, p ∈ w.ids)
    (hne : ∀ d ∈ w.dependencies, ∀ p ∈ d.parents, p ≠ d.child) : w.digraph.Proper := by
  have hmem : ∀ e ∈ w.digraph.edges, ∃ d ∈ w.dependencies, d.child = e.2 ∧ e.1 ∈ d.parents :=
    fun e he => mem_pairs_iff.mp (Digraph.mem_edges_ofPairs.mp he)
  refine ⟨fun e he => ?_, fun e he => ?_, fun e he => ?_⟩ <;>
    obtain ⟨d, hd, hchild, hparent⟩ := hmem e he
  · exact hp d hd _ hparent
  · exact hchild ▸ hc d hd
  · exact hchild ▸ hne d hd _ hparent

theorem Valid.digraph_proper {w : Workflow} (h : w.Valid) : w.digraph.Proper :=
  Workflow.digraph_proper h.child_mem h.parent_mem h.parent_ne

/-- The jobs of a validated workflow can be numbered so that numbers grow from each parent to its
child. -/
theorem Valid.exists_numbering {w : Workflow} (h : w.Valid) :
    ∃ number : String → Nat, ∀ p c, (p, c) ∈ w.pairs → number p < number c := by
  obtain ⟨number, hn⟩ := Digraph.exists_numbering h.digraph_proper h.no_cycle
  exact ⟨number, fun p c hpc => hn (p, c) (Digraph.mem_edges_ofPairs.mpr hpc)⟩

/-! ## The graph -/

/-- A graph that stands for a workflow. -/
structure Describes (w : Workflow) (scale : Binary64) (g : Graph) : Prop where
  wellFormed : g.WellFormed
  tasks : g.nodes.toList.map (·.task) = w.jobs.map (·.task scale)
  edge_iff : ∀ j k, j ∈ g.parents k ↔ j < g.size ∧ k < g.size ∧ (g.id j, g.id k) ∈ w.pairs

end Workflow

namespace Graph

theorem ids_of_tasks (g : Graph) :
    (g.nodes.toList.map (·.task)).map (·.id) = g.nodes.toList.map (·.task.id) := by
  simp [Function.comp_def]

def addTasks (g : Graph) (ts : List Task) : Graph := ts.foldl (fun g t => (g.addTask t).1) g

/-- Adding tasks of new ids puts them behind the others, without edges. -/
theorem addTasks_new {g : Graph} (hg : g.WellFormed) (hpar : ∀ k, g.parents k = [])
    (hpre : g.preprocessed = false) {ts : List Task}
    (hn : (g.nodes.toList.map (·.task.id) ++ ts.map (·.id)).Nodup) :
    (g.addTasks ts).WellFormed ∧ (∀ k, (g.addTasks ts).parents k = []) ∧
      (g.addTasks ts).preprocessed = false ∧
      (g.addTasks ts).nodes.toList.map (·.task) = g.nodes.toList.map (·.task) ++ ts := by
  induction ts generalizing g with
  | nil => exact ⟨hg, hpar, hpre, (List.append_nil _).symm⟩
  | cons t ts ih =>
    have hnew : g.key? t.id = none := by
      refine hg.key?_eq_none_iff.mpr fun hm => ?_
      exact (List.nodup_append.mp hn).2.2 _ hm t.id (by simp) rfl
    have hadd := addTask_of_new hnew
    obtain ⟨hw, hp, hq, ht⟩ := ih (hg.addTask t)
      (fun k => by rw [hadd, parents_push]; exact hpar k)
      ((preprocessed_addTask g t).trans hpre)
      (by rw [hadd]; simpa [push] using hn)
    refine ⟨hw, hp, hq, ht.trans ?_⟩
    rw [hadd]
    simp [push]

/-! Edges between tasks that are given by their ids -/

def ids (g : Graph) : List String := g.nodes.toList.map (·.task.id)

/-- The key of a task that is there. -/
def keyFor (g : Graph) (id : String) : TaskKey := (g.key? id).getD 0

theorem keyFor_link (g : Graph) (p c : TaskKey) : (g.link p c).keyFor = g.keyFor := by
  funext id
  rw [keyFor, keyFor, key?_link]

theorem WellFormed.key?_keyFor {g : Graph} (hg : g.WellFormed) {id : String} (h : id ∈ g.ids) :
    g.key? id = some (g.keyFor id) := by
  obtain ⟨k, hk⟩ := Option.ne_none_iff_exists'.mp fun hn => hg.key?_eq_none_iff.mp hn h
  rw [keyFor, hk]
  rfl

theorem WellFormed.keyFor_id {g : Graph} (hg : g.WellFormed) {id : String} (h : id ∈ g.ids) :
    g.keyFor id < g.size ∧ g.id (g.keyFor id) = id := hg.key?_eq_some_iff.mp (hg.key?_keyFor h)

theorem WellFormed.keyFor_eq_iff {g : Graph} (hg : g.WellFormed) {id : String} (h : id ∈ g.ids)
    {k : TaskKey} : k = g.keyFor id ↔ k < g.size ∧ g.id k = id := by
  rw [← hg.key?_eq_some_iff, hg.key?_keyFor h, Option.some.injEq, eq_comm]

/-- Adds an edge for each pair of a parent and its child. -/
def linkPairs (g : Graph) (es : List (String × String)) : Graph :=
  es.foldl (fun g e => g.link (g.keyFor e.1) (g.keyFor e.2)) g

theorem linkPairs_append (g : Graph) (es es' : List (String × String)) :
    g.linkPairs (es ++ es') = (g.linkPairs es).linkPairs es' := List.foldl_append

theorem tasks_linkPairs (g : Graph) (es : List (String × String)) :
    (g.linkPairs es).nodes.toList.map (·.task) = g.nodes.toList.map (·.task) := by
  induction es generalizing g with
  | nil => rfl
  | cons e es ih => exact (ih _).trans (tasks_link g _ _)

theorem keyFor_linkPairs (g : Graph) (es : List (String × String)) :
    (g.linkPairs es).keyFor = g.keyFor := by
  induction es generalizing g with
  | nil => rfl
  | cons e es ih => exact (ih _).trans (keyFor_link g _ _)

theorem preprocessed_linkPairs (g : Graph) (es : List (String × String)) :
    (g.linkPairs es).preprocessed = g.preprocessed := by
  induction es generalizing g with
  | nil => rfl
  | cons e es ih => exact (ih _).trans (preprocessed_link g _ _)

theorem Underived.linkPairs {g : Graph} (hg : g.Underived) (es : List (String × String)) :
    (g.linkPairs es).Underived := by
  induction es generalizing g with
  | nil => exact hg
  | cons e es ih => exact ih (hg.link _ _)

theorem ids_of_tasks_eq {g g' : Graph}
    (h : g'.nodes.toList.map (·.task) = g.nodes.toList.map (·.task)) : g'.ids = g.ids := by
  rw [ids, ids, ← ids_of_tasks, h, ids_of_tasks]

theorem WellFormed.linkPairs {g : Graph} (hg : g.WellFormed) {es : List (String × String)}
    (hes : ∀ e ∈ es, e.1 ∈ g.ids ∧ e.2 ∈ g.ids) : (g.linkPairs es).WellFormed ∧
      ∀ j k, j ∈ (g.linkPairs es).parents k ↔
        j ∈ g.parents k ∨ j < g.size ∧ k < g.size ∧ (g.id j, g.id k) ∈ es := by
  induction es generalizing g with
  | nil => exact ⟨hg, fun j k => by simp [Graph.linkPairs]⟩
  | cons e es ih =>
    obtain ⟨hp, hc⟩ := hes e List.mem_cons_self
    have hplt := (hg.keyFor_id hp).1
    have hclt := (hg.keyFor_id hc).1
    have ht := tasks_link g (g.keyFor e.1) (g.keyFor e.2)
    obtain ⟨hw, he⟩ := ih (hg.link hplt hclt) fun e' he' => by
      rw [ids_of_tasks_eq ht]
      exact hes e' (List.mem_cons_of_mem e he')
    refine ⟨hw, fun j k => (he j k).trans ?_⟩
    rw [mem_parents_link hg hclt, hg.keyFor_eq_iff hp, hg.keyFor_eq_iff hc, size_link,
      id_of_tasks ht, id_of_tasks ht, List.mem_cons, Prod.ext_iff]
    tauto

/-- A dependency between known tasks is accepted and adds its edges. -/
theorem addDependency_eq {g : Graph} (hg : g.WellFormed) {d : Dependency} (hc : d.child ∈ g.ids)
    (hps : ∀ p ∈ d.parents, p ∈ g.ids) : g.addDependency d.child d.parents =
      .ok (g.linkPairs (d.parents.map fun p => (p, d.child))) := by
  have hlink : ∀ (ps : List String) (g : Graph), g.linkAll (ps.map g.keyFor) (g.keyFor d.child) =
      g.linkPairs (ps.map fun p => (p, d.child)) := by
    intro ps
    induction ps with
    | nil => exact fun g => rfl
    | cons p ps ih =>
      intro g
      have hrest := ih (g.link (g.keyFor p) (g.keyFor d.child))
      rw [keyFor_link] at hrest
      exact hrest
  refine addDependency_eq_ok_iff.mpr ⟨_, d.parents.map g.keyFor, hg.key?_keyFor hc, ?_, hlink _ g⟩
  rw [List.map_map]
  exact List.map_congr_left fun p hp => hg.key?_keyFor (hps p hp)

end Graph

namespace Workflow

theorem addDependencies_eq {g : Graph} (hg : g.WellFormed) {ds : List Dependency}
    (hc : ∀ d ∈ ds, d.child ∈ g.ids) (hp : ∀ d ∈ ds, ∀ p ∈ d.parents, p ∈ g.ids) :
    ds.foldlM (fun g d => g.addDependency d.child d.parents) g =
      .ok (g.linkPairs (ds.flatMap fun d => d.parents.map fun p => (p, d.child))) := by
  induction ds generalizing g with
  | nil => rfl
  | cons d ds ih =>
    have hids : (g.linkPairs (d.parents.map fun p => (p, d.child))).ids = g.ids :=
      Graph.ids_of_tasks_eq (Graph.tasks_linkPairs g _)
    have hadd := Graph.addDependency_eq hg (hc d List.mem_cons_self) (hp d List.mem_cons_self)
    rw [List.foldlM_cons, hadd, List.flatMap_cons, Graph.linkPairs_append]
    exact ih (hg.addDependency hadd) (fun e hm => hids ▸ hc e (List.mem_cons_of_mem d hm))
      fun e hm p hpe => hids ▸ hp e (List.mem_cons_of_mem d hm) p hpe

/-- The jobs of a workflow, without any edge. -/
def tasksOnly (w : Workflow) (scale : Binary64) : Graph :=
  Graph.empty.addTasks (w.jobs.map (·.task scale))

theorem underived_tasksOnly (w : Workflow) (scale : Binary64) : (w.tasksOnly scale).Underived := by
  suffices h : ∀ (ts : List Task) (g : Graph), g.Underived → (g.addTasks ts).Underived from
    h _ _ Graph.empty_underived
  intro ts
  induction ts with
  | nil => exact fun g hg => hg
  | cons t ts ih => exact fun g hg => ih _ (hg.addTask t)

namespace Valid

variable {w : Workflow} (h : w.Valid) (scale : Binary64)
include h

theorem tasksOnly_ok : (w.tasksOnly scale).WellFormed ∧ (∀ k, (w.tasksOnly scale).parents k = []) ∧
    (w.tasksOnly scale).preprocessed = false ∧
    (w.tasksOnly scale).nodes.toList.map (·.task) = w.jobs.map (·.task scale) := by
  have hjobs : (w.jobs.map (·.task scale)).map (·.id) = w.ids := by
    rw [List.map_map]; rfl
  refine Graph.addTasks_new Graph.empty_wellFormed (fun k => by simp [Graph.empty, Graph.parents])
    rfl ?_
  rw [hjobs]
  exact h.ids_nodup

theorem ids_tasksOnly : (w.tasksOnly scale).ids = w.ids := by
  obtain ⟨-, -, -, ht⟩ := h.tasksOnly_ok scale
  rw [Graph.ids, ← Graph.ids_of_tasks, ht, List.map_map]
  rfl

theorem pairs_known : ∀ e ∈ w.pairs, e.1 ∈ w.ids ∧ e.2 ∈ w.ids := by
  intro e he
  obtain ⟨d, hd, hc, hp⟩ := mem_pairs_iff.mp he
  exact ⟨h.parent_mem d hd _ hp, hc ▸ h.child_mem d hd⟩

/-- The graph of a validated workflow is always put together: its jobs, then its pairs. -/
theorem graph_eq : w.graph scale = .ok ((w.tasksOnly scale).linkPairs w.pairs) := by
  have hids := h.ids_tasksOnly scale
  have hfold : w.graph scale = w.dependencies.foldlM
      (fun g d => g.addDependency d.child d.parents) (w.tasksOnly scale) := by
    rw [tasksOnly, Graph.addTasks, List.foldl_map]
    rfl
  rw [hfold]
  exact addDependencies_eq (h.tasksOnly_ok scale).1 (fun d hd => hids ▸ h.child_mem d hd)
    fun d hd p hp => hids ▸ h.parent_mem d hd p hp

theorem graph_ok : ∃ g, w.graph scale = .ok g ∧ w.Describes scale g ∧ g.preprocessed = false := by
  obtain ⟨hw, hpar, hpre, ht⟩ := h.tasksOnly_ok scale
  obtain ⟨hw', he⟩ := hw.linkPairs (h.ids_tasksOnly scale ▸ h.pairs_known)
  have ht' := Graph.tasks_linkPairs (w.tasksOnly scale) w.pairs
  have hsize : ((w.tasksOnly scale).linkPairs w.pairs).size = (w.tasksOnly scale).size := by
    simpa [Graph.size] using congrArg List.length ht'
  refine ⟨_, h.graph_eq scale, ⟨hw', ht'.trans ht, fun j k => ?_⟩,
    (Graph.preprocessed_linkPairs _ _).trans hpre⟩
  rw [he, hpar, hsize, Graph.id_of_tasks ht', Graph.id_of_tasks ht']
  simp

theorem underived_graph {g : Graph} (hg : w.graph scale = .ok g) : g.Underived := by
  obtain rfl := Except.ok.inj ((h.graph_eq scale).symm.trans hg)
  exact (w.underived_tasksOnly scale).linkPairs w.pairs

end Valid

namespace Describes

variable {w : Workflow} {scale : Binary64} {g : Graph}

theorem size_eq (h : w.Describes scale g) : g.size = w.jobs.length := by
  simpa [Graph.size] using congrArg List.length h.tasks

/-- The keys of the tasks are the places of the jobs. -/
theorem map_id (h : w.Describes scale g) : (List.range g.size).map g.id = w.ids := by
  refine List.ext_getElem? fun k => ?_
  have hk := congrArg (fun ts => (ts[k]?).map Task.id) h.tasks
  simp only [List.getElem?_map, Array.getElem?_toList, Option.map_map] at hk
  rw [ids, List.getElem?_map, List.getElem?_map]
  refine Eq.trans ?_ hk
  by_cases hlt : k < g.size
  · obtain ⟨n, hn⟩ := Graph.exists_node hlt
    simp [hlt, hn, Graph.id_of_getElem? hn]
  · simp [hlt, Array.getElem?_eq_none (not_lt.mp hlt)]

theorem mem_ids_iff (h : w.Describes scale g) {id : String} :
    id ∈ w.ids ↔ ∃ k < g.size, g.id k = id := by
  simp [← h.map_id]

theorem ids (h : w.Describes scale g) : g.ids = w.ids := by
  rw [Graph.ids, ← Graph.ids_of_tasks, h.tasks, List.map_map]
  rfl

theorem parent_keyFor (h : w.Describes scale g) (hw : w.Valid) {p c : String}
    (hpc : (p, c) ∈ w.pairs) : g.keyFor p ∈ g.parents (g.keyFor c) := by
  obtain ⟨hp, hc⟩ := hw.pairs_known (p, c) hpc
  obtain ⟨hplt, hpid⟩ := h.wellFormed.keyFor_id (h.ids ▸ hp)
  obtain ⟨hclt, hcid⟩ := h.wellFormed.keyFor_id (h.ids ▸ hc)
  exact (h.edge_iff _ _).mpr ⟨hplt, hclt, by rw [hpid, hcid]; exact hpc⟩

theorem of_outline {g' : Graph} (h : w.Describes scale g) (ho : g'.outline = g.outline) :
    w.Describes scale g' where
  wellFormed := h.wellFormed.of_outline ho
  tasks := (Graph.tasks_of_outline ho).trans h.tasks
  edge_iff j k := by
    rw [Graph.parents_of_outline ho, Graph.size_of_outline ho, Graph.id_of_outline ho,
      Graph.id_of_outline ho]
    exact h.edge_iff j k

end Describes

end Workflow

end Makespan
