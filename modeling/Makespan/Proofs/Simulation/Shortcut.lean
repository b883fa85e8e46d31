import Makespan.Proofs.Broker.Shortcut
import Makespan.Proofs.Simulation.Setup
import Makespan.Proofs.Workflow.Acceptance

/-! Dependencies that go without saying. A job that waits for another one through others may say so
itself: the workflow is accepted as before, and its simulations do not change. -/

namespace Makespan

namespace Graph

variable {p c : TaskKey} {g g' : Graph}

theorem Shortcut.keyFor (h : g.Shortcut p c g') : g'.keyFor = g.keyFor := by
  funext id
  rw [Graph.keyFor, Graph.keyFor, h.key?]

/-- Other edges may be added to a graph with a shortcut and to the one without it. -/
theorem Shortcut.linkPairs (h : g.Shortcut p c g') (hg : g.WellFormed) {es : List (String × String)}
    (hes : ∀ e ∈ es, e.1 ∈ g.ids ∧ e.2 ∈ g.ids) (hne : (g.id p, g.id c) ∉ es) :
    (g.linkPairs es).Shortcut p c (g'.linkPairs es) := by
  induction es generalizing g g' with
  | nil => exact h
  | cons e es ih =>
    obtain ⟨hp, hc⟩ := hes e List.mem_cons_self
    obtain ⟨hplt, hpid⟩ := hg.keyFor_id hp
    obtain ⟨hclt, hcid⟩ := hg.keyFor_id hc
    have hother : ¬ (g.keyFor e.1 = p ∧ g.keyFor e.2 = c) := by
      rintro ⟨rfl, rfl⟩
      exact hne (by rw [hpid, hcid]; exact List.mem_cons_self)
    have ht := tasks_link g (g.keyFor e.1) (g.keyFor e.2)
    have hrest := ih (h.link hplt hclt hother) (hg.link hplt hclt)
      (fun e' he' => by rw [ids_of_tasks_eq ht]; exact hes e' (List.mem_cons_of_mem e he'))
      (by rw [id_of_tasks ht, id_of_tasks ht]; exact fun hm => hne (List.mem_cons_of_mem e hm))
    show ((g.link (g.keyFor e.1) (g.keyFor e.2)).linkPairs es).Shortcut p c
      ((g'.link (g'.keyFor e.1) (g'.keyFor e.2)).linkPairs es)
    rw [h.keyFor]
    exact hrest

end Graph

namespace Workflow

/-- One job waits for another, directly or through others. -/
def Precedes (w : Workflow) : String → String → Prop :=
  Relation.TransGen fun p c => (p, c) ∈ w.pairs

/-- The second workflow is the first one with `p` as one more parent of `c`, somewhere. -/
structure Shortcut (p c : String) (w w' : Workflow) : Prop where
  jobs : w'.jobs = w.jobs
  label : w'.label = w.label
  children : w'.dependencies.map (·.child) = w.dependencies.map (·.child)
  pairs : ∃ before after, w.pairs = before ++ after ∧ w'.pairs = before ++ (p, c) :: after

variable {p c : String} {w w' : Workflow} {scale : Binary64} {g : Graph}

/-- One more parent in one of the dependencies. -/
theorem Shortcut.of_parents {before after : List Dependency} {front back : List String}
    (hd : w.dependencies = before ++ ⟨c, front ++ back⟩ :: after) :
    w.Shortcut p c { w with dependencies := before ++ ⟨c, front ++ p :: back⟩ :: after } where
  jobs := rfl
  label := rfl
  children := by simp [hd]
  pairs := by
    refine ⟨(before.flatMap fun d => d.parents.map fun p => (p, d.child)) ++ front.map (·, c),
      back.map (·, c) ++ after.flatMap fun d => d.parents.map fun p => (p, d.child), ?_, ?_⟩
    · simp [Workflow.pairs, hd]
    · simp [Workflow.pairs]

/-! ## The workflow is accepted -/

namespace Shortcut

theorem mem_pairs_iff (h : w.Shortcut p c w') {e : String × String} :
    e ∈ w'.pairs ↔ e = (p, c) ∨ e ∈ w.pairs := by
  obtain ⟨before, after, hw, hw'⟩ := h.pairs
  rw [hw, hw', List.mem_append, List.mem_append, List.mem_cons]
  tauto

theorem precedes (h : w.Shortcut p c w') (hpc : w.Precedes p c) {x y : String}
    (hxy : w'.Precedes x y) : w.Precedes x y := by
  refine Relation.TransGen.closed (fun x y hxy => ?_) x y hxy
  rcases h.mem_pairs_iff.mp hxy with he | hxy
  · obtain ⟨rfl, rfl⟩ := Prod.mk.inj he
    exact hpc
  · exact .single hxy

theorem coherent (h : w.Shortcut p c w') (hpc : w.Precedes p c) (hne : p ≠ c) (hw : w.Coherent) :
    w'.Coherent := by
  have hids : w'.ids = w.ids := by rw [ids, ids, h.jobs]
  have hold : ∀ e ∈ w.pairs, e.1 ∈ w.ids ∧ e.1 ≠ e.2 := by
    intro e he
    obtain ⟨d, hd, hc, hp⟩ := Workflow.mem_pairs_iff.mp he
    exact ⟨hw.parent_mem d hd _ hp, hc ▸ hw.parent_ne d hd _ hp⟩
  have hnew : ∀ e ∈ w'.pairs, e.1 ∈ w.ids ∧ e.1 ≠ e.2 := by
    intro e he
    rcases h.mem_pairs_iff.mp he with rfl | he
    · obtain ⟨q, hpq, -⟩ := Relation.TransGen.head'_iff.mp hpc
      exact ⟨(hold _ hpq).1, hne⟩
    · exact hold e he
  exact
    { jobs_ne := h.jobs ▸ hw.jobs_ne
      ids_nodup := hids ▸ hw.ids_nodup
      runtime_ok := h.jobs ▸ hw.runtime_ok
      child_mem := by
        intro d hd
        have hm : d.child ∈ w.dependencies.map (·.child) := by
          rw [← h.children]
          exact List.mem_map_of_mem hd
        obtain ⟨d₀, hd₀, he⟩ := List.mem_map.mp hm
        rw [hids, ← he]
        exact hw.child_mem d₀ hd₀
      parent_mem := fun d hd q hq =>
        hids ▸ (hnew (q, d.child) (Workflow.mem_pairs_iff.mpr ⟨d, hd, rfl, hq⟩)).1
      parent_ne := fun d hd q hq =>
        (hnew (q, d.child) (Workflow.mem_pairs_iff.mpr ⟨d, hd, rfl, hq⟩)).2 }

theorem validate (h : w.Shortcut p c w') (hpc : w.Precedes p c) (hw : w.validate = .ok w) :
    w'.validate = .ok w' := by
  obtain ⟨hcoherent, hcycle⟩ := check_eq_ok_iff.mp (validate_eq_ok_iff.mp hw).1
  have hfree := hcoherent.onCycle?_eq_none_iff.mp hcycle
  have hne : p ≠ c := by
    rintro rfl
    exact hfree p hpc
  have hcoherent' := h.coherent hpc hne hcoherent
  refine validate_eq_ok_iff.mpr ⟨check_eq_ok_iff.mpr ⟨hcoherent', ?_⟩, rfl⟩
  exact hcoherent'.onCycle?_eq_none_iff.mpr fun id hid => hfree id (h.precedes hpc hid)

end Shortcut

/-! ## The graph has a shortcut -/

namespace Describes

theorem acyclic (h : w.Describes scale g) (hw : w.Valid) : g.Acyclic := by
  obtain ⟨number, hn⟩ := hw.exists_numbering
  exact ⟨fun k => number (g.id k), fun j k hj => hn _ _ ((h.edge_iff j k).mp hj).2.2⟩

theorem ancestor (h : w.Describes scale g) (hw : w.Valid) {x y : String} (hxy : w.Precedes x y) :
    g.Ancestor (g.keyFor x) (g.keyFor y) := by
  exact Relation.TransGen.lift g.keyFor (fun x y hxy => h.parent_keyFor hw hxy) x y hxy

end Describes

theorem Shortcut.graph (h : w.Shortcut p c w') (hw : w.Valid) (hw' : w'.Valid)
    (hnew : (p, c) ∉ w.pairs) (scale : Binary64) : ∃ g g', w.graph scale = .ok g ∧
      w'.graph scale = .ok g' ∧ g.Shortcut (g.keyFor p) (g.keyFor c) g' := by
  obtain ⟨before, after, hpairs, hpairs'⟩ := h.pairs
  have hgraph := hw.graph_eq scale
  have hgraph' := hw'.graph_eq scale
  have htasks : w'.tasksOnly scale = w.tasksOnly scale := by rw [tasksOnly, tasksOnly, h.jobs]
  rw [hpairs, Graph.linkPairs_append] at hgraph
  rw [htasks, hpairs', Graph.linkPairs_append] at hgraph'
  obtain ⟨hwt, hpar, -, -⟩ := hw.tasksOnly_ok scale
  have hknown : ∀ e ∈ before ++ after, e.1 ∈ w.ids ∧ e.2 ∈ w.ids := hpairs ▸ hw.pairs_known
  -- the graph before the new parent is the same for both
  let g := (w.tasksOnly scale).linkPairs before
  have ht : g.nodes.toList.map (·.task) = (w.tasksOnly scale).nodes.toList.map (·.task) :=
    Graph.tasks_linkPairs _ _
  obtain ⟨hwg, hedge⟩ := hwt.linkPairs fun e he => by
    rw [hw.ids_tasksOnly]
    exact hknown e (List.mem_append_left _ he)
  have hids : g.ids = w.ids := (Graph.ids_of_tasks_eq ht).trans (hw.ids_tasksOnly scale)
  obtain ⟨hp, hc⟩ : p ∈ g.ids ∧ c ∈ g.ids := by
    rw [hids, ids, ← h.jobs]
    exact hw'.pairs_known (p, c) (h.mem_pairs_iff.mpr (Or.inl rfl))
  obtain ⟨hplt, hpid⟩ := hwg.keyFor_id hp
  obtain ⟨hclt, hcid⟩ := hwg.keyFor_id hc
  have hself : g.Shortcut (g.keyFor p) (g.keyFor c) g := by
    refine .refl hwg fun hm => ?_
    have hm := (hedge _ _).mp hm
    rw [hpar, ← Graph.id_of_tasks ht, ← Graph.id_of_tasks ht, hpid, hcid] at hm
    rcases hm with hm | ⟨-, -, hm⟩
    · cases hm
    · exact hnew (hpairs ▸ List.mem_append_left _ hm)
  refine ⟨g.linkPairs after, (g.link (g.keyFor p) (g.keyFor c)).linkPairs after, hgraph, hgraph',
    ?_⟩
  rw [Graph.keyFor_linkPairs]
  refine (hself.link_right hplt hclt).linkPairs hwg (fun e he => ?_) fun hm => ?_
  · rw [hids]
    exact hknown e (List.mem_append_right _ he)
  · rw [hpid, hcid] at hm
    exact hnew (hpairs ▸ List.mem_append_right _ hm)

/-- Every simulation takes the same course. -/
theorem Shortcut.simulate?_eq (h : w.Shortcut p c w') (hw : w.Valid) (hw' : w'.Valid)
    (hpc : w.Precedes p c) (hnew : (p, c) ∉ w.pairs) (policy : Policy) (settings : Settings)
    (provisioner : Provisioner) (events : Nat) :
    simulate? events w' policy settings provisioner =
      simulate? events w policy settings provisioner := by
  obtain ⟨g, g', hg, hg', hs⟩ := h.graph hw hw' hnew settings.lengthScale
  obtain ⟨g₁, hg₁, hd, hpre⟩ := hw.graph_ok settings.lengthScale
  obtain ⟨g₂, hg₂, hd', hpre'⟩ := hw'.graph_ok settings.lengthScale
  obtain rfl := Except.ok.inj (hg.symm.trans hg₁)
  obtain rfl := Except.ok.inj (hg'.symm.trans hg₂)
  obtain ⟨s, hnews, -, -, ha, hne, hc⟩ := Scheduler.new_ok hd.wellFormed hpre policy
  obtain ⟨g₀, hnews', hs', hin, hancestor⟩ := hs.scheduler (hd.ancestor hw hpc) hd.wellFormed
    hd'.wellFormed (hw.underived_graph _ hg) (hw'.underived_graph _ hg') (hd.acyclic hw) hpre' hnews
  let b := Broker.new w.label s settings.tiers settings.cycleDelay
  have hb : w.broker policy settings = .ok b := broker_eq_ok_iff.mpr ⟨g, hg, s, hnews, rfl⟩
  have hb' : w'.broker policy settings = .ok (b.on g₀) :=
    broker_eq_ok_iff.mpr ⟨g', hg', s.on g₀, hnews', by rw [h.label]; rfl⟩
  have hacc : b.Accounted [] := Broker.new_accounted ha hne hc _ _ _
  rw [simulate?_of_broker hb, simulate?_of_broker hb']
  exact Broker.run?_on_shortcut hacc hs' hancestor hin events provisioner

end Workflow

/-- A dependency on a job that is waited for anyway changes nothing: wherever it is put, the workflow
is accepted, and every simulation of it comes to the same as before, with the same trace, or
goes on as without it. -/
theorem redundant_dependency_never_matters {rawWorkflow w : Workflow}
    (hw : rawWorkflow.validate = .ok w) {before after : List Dependency}
    {p c : String} {front back : List String}
    (hd : w.dependencies = before ++ ⟨c, front ++ back⟩ :: after) (hpc : w.Precedes p c)
    (hnew : (p, c) ∉ w.pairs) :
    let w' := { w with dependencies := before ++ ⟨c, front ++ p :: back⟩ :: after }
    w'.validate = .ok w' ∧ ∀ policy settings provisioner events,
      simulate? events w' policy settings provisioner =
        simulate? events w policy settings provisioner := by
  intro w'
  have h : w.Shortcut p c w' := .of_parents hd
  have hw₀ : w.validate = .ok w := by
    obtain ⟨hcheck, rfl⟩ := Workflow.validate_eq_ok_iff.mp hw
    exact hw
  have hw' := h.validate hpc hw₀
  refine ⟨hw', fun policy settings provisioner events => ?_⟩
  exact h.simulate?_eq (Workflow.validate_sound hw₀) (Workflow.validate_sound hw') hpc hnew policy
    settings provisioner events

/-- Three jobs, one after the other. -/
def Workflow.threeInARow : Workflow where
  jobs := [{ id := "a", runtime := 10 }, { id := "b", runtime := 2 }, { id := "c", runtime := 5 }]
  dependencies := [⟨"b", ["a"]⟩, ⟨"c", ["b"]⟩]

/-- The third job may say that it waits for the first one, too. -/
theorem threeInARow_redundant :
    let w' : Workflow :=
      { Workflow.threeInARow with dependencies := [⟨"b", ["a"]⟩, ⟨"c", ["a", "b"]⟩] }
    w'.validate = .ok w' ∧ ∀ policy settings provisioner events,
      simulate? events w' policy settings provisioner =
        simulate? events .threeInARow policy settings provisioner := by
  have hw : Workflow.threeInARow.validate = .ok .threeInARow := by decide +kernel
  have hpc : Workflow.threeInARow.Precedes "a" "c" :=
    .tail (b := "b") (.single (by decide)) (by decide)
  have hd : Workflow.threeInARow.dependencies = [⟨"b", ["a"]⟩] ++ ⟨"c", [] ++ ["b"]⟩ :: [] := rfl
  have h := redundant_dependency_never_matters hw hd hpc (by decide)
  simp only [List.nil_append, List.cons_append] at h
  exact h

end Makespan
