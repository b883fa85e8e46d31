import Makespan.Proofs.Broker.StandIn
import Makespan.Proofs.Graph.Renaming
import Makespan.Proofs.Simulation.Completion
import Makespan.Proofs.Workflow.Acceptance

/-! Job ids are only names. Whatever the jobs are called, a description is accepted just as before,
and its simulations come to the same, with the other names in their traces. -/

namespace Makespan

namespace Graph

variable {f : String → String} {g g' : Graph}

/-- A graph that differs in names alone can stand in. -/
theorem StandIn.of_rename (h : g'.rename sameName = g.rename f) (policy : Policy) :
    StandIn policy f g g' := by
  have hsize : g'.size = g.size := by rw [← g'.size_rename (f := sameName), h, size_rename]
  refine ⟨hsize, fun k hk => ?_, fun k => ?_, fun k => ?_⟩
  · have hk' : k < g'.size := hsize.symm ▸ hk
    rw [← g.id_rename (f := f) hk, ← h, g'.id_rename (f := sameName) hk']
    rfl
  · rw [← g'.length_rename (f := sameName), h, length_rename]
  · rw [← g'.rankOf_rename (f := sameName), h, rankOf_rename]

/-- A scheduler is made in the same way on a graph that differs in names alone. -/
theorem scheduler_of_rename (h : g'.rename sameName = g.rename f) {policy : Policy} {s : Scheduler}
    (hs : Scheduler.new g policy = .ok s) :
    ∃ g₁, Scheduler.new g' policy = .ok (s.on g₁) ∧ g₁.rename sameName = s.graph.rename f := by
  obtain ⟨g₀, h₀, hseed⟩ := bind_eq_ok_iff.mp hs
  obtain ⟨_, h₁, -, hpre, -⟩ :=
    preprocess_ok (preprocess_eq_ok_iff.mp h₀).1 policy.required
  obtain rfl := Except.ok.inj (h₀.symm.trans h₁)
  have hboth : (g'.preprocess policy.required).map (·.rename sameName) =
      (g.preprocess policy.required).map (·.rename f) := by
    rw [← preprocess_rename, ← preprocess_rename, h]
  rw [h₀] at hboth
  cases h' : g'.preprocess policy.required with
  | error e =>
    rw [h'] at hboth
    cases hboth
  | ok g₁ =>
    rw [h'] at hboth
    have hsame : g₁.rename sameName = g₀.rename f := Except.ok.inj hboth
    have hready : g₁.nodes.map (·.ready) = g₀.nodes.map (·.ready) := by
      rw [← g₁.ready_rename (f := sameName), hsame, ready_rename]
    obtain ⟨hseeded, rfl, -⟩ := Scheduler.seeded_on hseed
      ((congrArg (·.preprocessed) hsame).trans hpre) (congrArg (·.roots) hsame) hready
    exact ⟨g₁, bind_eq_ok_iff.mpr ⟨g₁, h', hseeded⟩, hsame⟩

end Graph

namespace Workflow

/-- The second description is the first one with other names for the jobs. Their programs do not
matter. -/
structure SameButNames (f : String → String) (w w' : Workflow) : Prop where
  name : w'.name? = w.name?
  jobs : List.Forall₂ (fun j j' => j'.id = f j.id ∧ j'.runtime = j.runtime) w.jobs w'.jobs
  dependencies : w'.dependencies = w.dependencies.map fun d => ⟨f d.child, d.parents.map f⟩

namespace SameButNames

variable {f : String → String} {w w' : Workflow} (h : w.SameButNames f w')
include h

theorem ids : w'.ids = w.ids.map f := by
  rw [Workflow.ids, Workflow.ids, List.map_map]
  exact map_eq_of_forall₂ (h.jobs.imp fun _ _ hj => hj.1)

theorem runtimes : w'.jobs.map (·.runtime) = w.jobs.map (·.runtime) :=
  map_eq_of_forall₂ (h.jobs.imp fun _ _ hj => hj.2)

theorem pairs : w'.pairs = w.pairs.map (Prod.map f f) := by
  rw [Workflow.pairs, Workflow.pairs, h.dependencies, List.flatMap_map, List.map_flatMap]
  simp only [List.map_map, Function.comp_def, Prod.map]

theorem tasks (scale : Binary64) : (w'.jobs.map (·.task scale)).map (·.rename sameName) =
    (w.jobs.map (·.task scale)).map (·.rename f) := by
  rw [List.map_map, List.map_map]
  refine map_eq_of_forall₂ (h.jobs.imp fun j j' hj => ?_)
  show Task.rename sameName (j'.task scale) = Task.rename f (j.task scale)
  simp only [Job.task, Task.new, Task.rename, hj.1, hj.2, sameName]

/-! ## The description is accepted -/

variable (hf : Function.Injective f)
include hf

theorem mem_ids_iff {id : String} : f id ∈ w'.ids ↔ id ∈ w.ids := by
  rw [h.ids, List.mem_map_of_injective hf]

theorem coherent_iff : w'.Coherent ↔ w.Coherent := by
  have hne : w'.jobs = [] ↔ w.jobs = [] := by
    rw [← List.length_eq_zero_iff, ← List.length_eq_zero_iff, h.jobs.length_eq]
  have hnodup : w'.ids.Nodup ↔ w.ids.Nodup := by rw [h.ids, List.nodup_map_iff hf]
  have hruntime : ∀ {P : Binary64 → Prop},
      (∀ j ∈ w'.jobs, P j.runtime) ↔ ∀ j ∈ w.jobs, P j.runtime := by
    intro P
    rw [← List.forall_mem_map (P := P), h.runtimes, List.forall_mem_map]
  have hdeps : (∀ d ∈ w'.dependencies, d.child ∈ w'.ids ∧
      ∀ p ∈ d.parents, p ∈ w'.ids ∧ p ≠ d.child) ↔
      ∀ d ∈ w.dependencies, d.child ∈ w.ids ∧ ∀ p ∈ d.parents, p ∈ w.ids ∧ p ≠ d.child := by
    simp only [h.dependencies, List.forall_mem_map, h.mem_ids_iff hf, hf.ne_iff]
  simp only [Workflow.coherent_iff, checkJobs_eq_ok_iff, checkDependencies_eq_ok_iff, ne_eq, hne,
    List.not_mem_nil, not_false_eq_true, implies_true, true_and, hdeps]
  exact and_congr_right fun _ => and_congr_left fun _ => and_congr hnodup
    (hruntime (P := fun r => r.isFinite = true ∧ r.lt 0 = false))

theorem mem_pairs_iff {p c : String} : (f p, f c) ∈ w'.pairs ↔ (p, c) ∈ w.pairs := by
  rw [h.pairs]
  exact List.mem_map_of_injective (hf.prodMap hf) (a := (p, c))

/-- Whoever waits under the new names waits under the old ones, too. -/
theorem waits_of_waits {x y : String}
    (hxy : Relation.TransGen (fun p c => (p, c) ∈ w'.pairs) x y) : ∃ p c, f p = x ∧ f c = y ∧
      Relation.TransGen (fun p c => (p, c) ∈ w.pairs) p c := by
  have hold : ∀ {x y}, (x, y) ∈ w'.pairs → ∃ p c, f p = x ∧ f c = y ∧ (p, c) ∈ w.pairs := by
    intro x y hxy
    rw [h.pairs] at hxy
    obtain ⟨⟨p, c⟩, hpc, he⟩ := List.mem_map.mp hxy
    obtain ⟨hp, hc⟩ := Prod.mk.inj he
    exact ⟨p, c, hp, hc, hpc⟩
  induction hxy with
  | single hxy =>
    obtain ⟨p, c, hp, hc, hpc⟩ := hold hxy
    exact ⟨p, c, hp, hc, .single hpc⟩
  | tail _ hyz ih =>
    obtain ⟨p, c, hp, hc, hpc⟩ := ih
    obtain ⟨c', d, hc', hd, hcd⟩ := hold hyz
    obtain rfl := hf (hc.trans hc'.symm)
    exact ⟨p, d, hp, hd, hpc.tail hcd⟩

theorem waitsForItself_iff : (∃ id, w'.WaitsForItself id) ↔ ∃ id, w.WaitsForItself id := by
  constructor
  · intro ⟨id, hid⟩
    obtain ⟨p, c, hp, hc, hpc⟩ := h.waits_of_waits hf hid
    obtain rfl := hf (hp.trans hc.symm)
    exact ⟨p, hpc⟩
  · intro ⟨id, hid⟩
    exact ⟨f id, Relation.TransGen.lift f (fun p c => (h.mem_pairs_iff hf).mpr) id id hid⟩

theorem check_iff : w'.check = .ok () ↔ w.check = .ok () := by
  rw [check_eq_ok_iff, check_eq_ok_iff, h.coherent_iff hf]
  refine and_congr_right fun hw => ?_
  rw [hw.onCycle?_eq_none_iff, ((h.coherent_iff hf).mpr hw).onCycle?_eq_none_iff, ← not_exists,
    ← not_exists, h.waitsForItself_iff hf]

/-! ## The simulation is the same -/

theorem graph (hw : w.Valid) (hw' : w'.Valid) (scale : Binary64) : ∃ g g',
    w.graph scale = .ok g ∧ w'.graph scale = .ok g' ∧ g'.rename sameName = g.rename f := by
  refine ⟨_, _, hw.graph_eq scale, hw'.graph_eq scale, ?_⟩
  have hself : Function.Injective sameName := Function.injective_id
  have hpairs : w'.pairs.map (Prod.map sameName sameName) = w'.pairs := List.map_id' _
  have htasks : (w'.tasksOnly scale).rename sameName = (w.tasksOnly scale).rename f := by
    rw [tasksOnly, tasksOnly, Graph.addTasks_rename _ hself, Graph.addTasks_rename _ hf, h.tasks,
      Graph.rename_empty, Graph.rename_empty]
  rw [Graph.linkPairs_rename _ hself, Graph.linkPairs_rename _ hf, hpairs, htasks, h.pairs]

theorem simulate?_eq (hw : w.Valid) (hw' : w'.Valid) (policy : Policy) (settings : Settings)
    (provisioner : Provisioner) (events : Nat) :
    simulate? events w' policy settings provisioner =
      (simulate? events w policy settings provisioner).map (renameResult f) := by
  obtain ⟨g, g', hg, hg', hsame⟩ := h.graph hf hw hw' settings.lengthScale
  obtain ⟨g₀, hg₀, hd, hpre⟩ := hw.graph_ok settings.lengthScale
  obtain rfl := Except.ok.inj (hg.symm.trans hg₀)
  obtain ⟨s, hs, -, -, ha, hne, hc⟩ := Scheduler.new_ok hd.wellFormed hpre policy
  obtain ⟨g₁, hs', hsame⟩ := Graph.scheduler_of_rename hsame hs
  let b := Broker.new w.label s settings.tiers settings.cycleDelay
  have hb : w.broker policy settings = .ok b := broker_eq_ok_iff.mpr ⟨g, hg, s, hs, rfl⟩
  have hlabel : w'.label = w.label := by rw [label, label, h.name]
  have hb' : w'.broker policy settings = .ok (b.under f g₁) :=
    broker_eq_ok_iff.mpr ⟨g', hg', s.on g₁, hs', by rw [hlabel, Broker.under_new]⟩
  have hacc : b.Accounted [] := Broker.new_accounted ha hne hc _ _ _
  have hparents : g₁.parents = s.graph.parents := by
    rw [← g₁.parents_rename (f := sameName), hsame, Graph.parents_rename]
  have hchildren : g₁.children = s.graph.children := by
    rw [← g₁.children_rename (f := sameName), hsame, Graph.children_rename]
  rw [simulate?_of_broker hb, simulate?_of_broker hb']
  refine Broker.run?_under hacc (.of_rename hsame _) (fun c log hbasis _ w task _ => ?_) events
    provisioner
  exact Scheduler.releasesAlike_of_edges (hparents.trans (congrArg _ hbasis.graph.symm))
    (hchildren.trans (congrArg _ hbasis.graph.symm)) task

/-- No error tells the name of a job. -/
theorem simulate?_eq_map (hw : w.Valid) (hw' : w'.Valid) (policy : Policy) {settings : Settings}
    (hs : settings.Valid) (provisioner : Provisioner) (events : Nat) :
    simulate? events w' policy settings provisioner =
      (simulate? events w policy settings provisioner).map (Except.map (Report.rename f)) := by
  rw [h.simulate?_eq hf hw hw']
  refine Option.map_congr fun result hr => ?_
  cases result with
  | ok r => rfl
  | error e =>
    rcases hw.failure_cases hs hr with rfl | rfl
    · rfl
    · rfl

end SameButNames

end Workflow

/-- What the jobs are called makes no difference. Under other names a description is accepted if it
was accepted before, and then every simulation of it fails with the same error, comes to the same
report with the new names in its trace, or goes on as under the old names. -/
theorem job_names_never_matter {f : String → String} (hf : Function.Injective f)
    {rawWorkflow rawWorkflow' : Workflow} (h : rawWorkflow.SameButNames f rawWorkflow') :
    ((∃ w', rawWorkflow'.validate = .ok w') ↔ ∃ w, rawWorkflow.validate = .ok w) ∧
      ∀ w w', rawWorkflow.validate = .ok w → rawWorkflow'.validate = .ok w' →
        ∀ policy rawSettings settings provisioner events,
          Settings.validate rawSettings = .ok settings →
            simulate? events w' policy settings provisioner =
              (simulate? events w policy settings provisioner).map
                (Except.map (Report.rename f)) := by
  constructor
  · simp only [Workflow.validate_eq_ok_iff, exists_and_left, exists_eq', and_true, h.check_iff hf]
  · intro w w' hw hw' policy rawSettings settings provisioner events hs
    have hvalid := Workflow.validate_sound hw
    have hvalid' := Workflow.validate_sound hw'
    have hs := Settings.validate_sound hs
    obtain ⟨-, rfl⟩ := Workflow.validate_eq_ok_iff.mp hw
    obtain ⟨-, rfl⟩ := Workflow.validate_eq_ok_iff.mp hw'
    exact h.simulate?_eq_map hf hvalid hvalid' policy hs provisioner events

/-- The two jobs in a row have swapped their ids, and one of them has a name of its own. -/
def Workflow.swappedIds : Workflow where
  jobs := [{ id := "b", name := "first", runtime := 10 }, { id := "a", runtime := 2 }]
  dependencies := [⟨"a", ["b"]⟩]

theorem swappedIds_never_matter :
    Workflow.twoInARow.SameButNames (Equiv.swap "a" "b") .swappedIds ∧
      (∃ w, Workflow.swappedIds.validate = .ok w) ∧ ∀ policy provisioner events,
        simulate? events .swappedIds policy .oneWorker provisioner =
          (simulate? events .twoInARow policy .oneWorker provisioner).map
            (Except.map (Report.rename (Equiv.swap "a" "b"))) := by
  have h : Workflow.twoInARow.SameButNames (Equiv.swap "a" "b") .swappedIds :=
    { name := rfl
      jobs := .cons ⟨by decide +kernel, rfl⟩ (.cons ⟨by decide +kernel, rfl⟩ .nil)
      dependencies := by decide +kernel }
  have hw' : Workflow.swappedIds.validate = .ok .swappedIds := by decide +kernel
  obtain ⟨haccepted, hsame⟩ := job_names_never_matter (Equiv.injective _) h
  refine ⟨h, haccepted.mpr ⟨_, Workflow.twoInARow_validate⟩, fun policy provisioner events => ?_⟩
  exact hsame _ _ Workflow.twoInARow_validate hw' policy _ _ provisioner events
    Settings.oneWorker_validate

end Makespan
