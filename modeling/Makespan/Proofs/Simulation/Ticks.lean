import Makespan.Proofs.Simulation.Setup

/-! Simulations seen tick by tick. Each cycle of a run finds what the dispatches of the cycles before
it tell, with no word about the events in between: a job is over when its time has passed, and one
that ends exactly on a tick is over at that tick. -/

namespace Makespan

/-- The instructions of a job. -/
def Workflow.workLength (w : Workflow) (scale : Binary64) (id : String) : Nat :=
  (w.jobs.find? (·.id = id)).elim 0 fun j => (j.task scale).length

/-- What a simulation is about. -/
def Workflow.plan (w : Workflow) (settings : Settings) (provisioner : Provisioner) : Plan where
  jobs := w.ids
  waitsFor c p := (p, c) ∈ w.pairs
  usable v := v < settings.workerCount ∧ provisioner v = .created
  finish start id v := start + (settings.speeds[v]?).elim 0 fun speed =>
    .ofNat (w.workLength settings.lengthScale id) / speed

theorem Workflow.Describes.workLength_eq {w : Workflow} {scale : Binary64} {g : Graph}
    (h : w.Describes scale g) (id : String) :
    (g.key? id).elim 0 g.workLength = w.workLength scale id := by
  unfold workLength
  cases hf : w.jobs.find? (·.id = id) with
  | none =>
    have hnone : g.key? id = none := by
      refine h.wellFormed.key?_eq_none_iff.mpr fun hm => ?_
      rw [← Graph.ids_of_tasks, h.tasks, List.map_map] at hm
      obtain ⟨j, hj, hid⟩ := List.mem_map.mp hm
      have hne : ¬ j.id = id := by simpa using List.find?_eq_none.mp hf j hj
      exact absurd hid hne
    rw [hnone]
    rfl
  | some j =>
    obtain ⟨k, hk⟩ := List.mem_iff_getElem?.mp (List.mem_of_find?_eq_some hf)
    have hid : j.id = id := by simpa using List.find?_some hf
    have htask := congrArg (·[k]?) h.tasks
    simp only [List.getElem?_map, Array.getElem?_toList, hk, Option.map_some] at htask
    obtain ⟨n, hn, hnt⟩ := Option.map_eq_some_iff.mp htask
    have hkey : g.key? id = some k := by
      refine h.wellFormed.key?_eq_some_iff.mpr ⟨(Array.getElem?_eq_some_iff.mp hn).1, ?_⟩
      rw [Graph.id_of_getElem? hn, hnt]
      exact hid
    rw [hkey]
    show g.workLength k = (j.task scale).length
    rw [Graph.workLength, hn, ← hnt]
    rfl

namespace Broker

/-- The plan of a broker is that of its simulation. -/
theorem plan_eq {w : Workflow} (hw : w.Valid) {settings : Settings} {b : Broker}
    (hd : w.Describes settings.lengthScale b.scheduler.graph)
    (hpool : b.pool = .ofTiers settings.tiers) (provisioner : Provisioner) :
    b.plan (fun i => provisioner i = .created) = w.plan settings provisioner := by
  have hwaits : ∀ c p, (∃ k j, b.scheduler.graph.id k = c ∧ b.scheduler.graph.id j = p ∧
      j ∈ b.scheduler.graph.parents k) ↔ (p, c) ∈ w.pairs := by
    intro c p
    constructor
    · rintro ⟨k, j, rfl, rfl, hj⟩
      exact ((hd.edge_iff j k).mp hj).2.2
    · intro hpc
      obtain ⟨d, hdm, rfl, hp⟩ := Workflow.mem_pairs_iff.mp hpc
      obtain ⟨k, hk, hkc⟩ := hd.mem_ids_iff.mp (hw.child_mem d hdm)
      obtain ⟨j, hj, hjp⟩ := hd.mem_ids_iff.mp (hw.parent_mem d hdm p hp)
      exact ⟨k, j, hkc, hjp, (hd.edge_iff j k).mpr ⟨hj, hk, by rw [hkc, hjp]; exact hpc⟩⟩
  unfold plan Workflow.plan
  simp only [hd.map_id, hwaits, hpool, Pool.size_ofTiers, Pool.executionTime_ofTiers,
    hd.workLength_eq, decide_eq_true_eq]

/-- The trace of a run on course follows the plan, wherever the run stands. -/
theorem Course.follows {created : WorkerId → Bool} {b₀ : Broker} {p : Progress}
    (h : Course created b₀ p) (hc : ∃ v < b₀.pool.size, created v = true) {w : Workflow}
    (hw : w.Valid) {scale : Binary64} (hd : w.Describes scale b₀.scheduler.graph) :
    ∃ trace, p.trace? = some trace ∧ Along (b₀.plan created).Allows trace.toList := by
  cases h with
  | provisioning setup lt h => exact ⟨_, rfl, setup.plan created ▸ h.ticks⟩
  | refused none_created =>
    obtain ⟨v, hv, hcv⟩ := hc
    rw [none_created v hv] at hcv
    cases hcv
  | steady setup some_created h => exact ⟨_, rfl, setup.plan created ▸ h.ticks⟩
  | stalled setup some_created h => exact absurd h (setup.not_stuck hw hd)
  | finished setup some_created h done ticks executed trace =>
    refine ⟨_, rfl, ?_⟩
    rw [trace, ← setup.plan created]
    exact ticks

end Broker

/-- Every cycle of every run with a worker finds exactly the jobs that were not dispatched before
and whose parents' time has passed by then, and exactly the workers whose jobs' time has passed;
both at any point of a run and in the report of a run that ends. -/
theorem every_cycle_follows_plan {rawWorkflow w : Workflow} (hw : rawWorkflow.validate = .ok w)
    {rawSettings settings : Settings} (hs : rawSettings.validate = .ok settings) (policy : Policy)
    {provisioner : Provisioner} (hp : ∀ i, provisioner i ≠ .crashed)
    (hc : ∃ i < settings.workerCount, provisioner i = .created) :
    (∃ b b', w.broker policy settings = .ok b ∧ b.start provisioner = .ok b' ∧
      ∀ events, ∃ trace, (b'.progress events).trace? = some trace ∧
        Along (w.plan settings provisioner).Allows trace.toList) ∧
    ∀ events r, simulate? events w policy settings provisioner = some (.ok r) →
      Along (w.plan settings provisioner).Allows r.trace.toList := by
  have hw := Workflow.validate_sound hw
  have hs := Settings.validate_sound hs
  obtain ⟨b, hb, hi, hpool, hd, hcourse⟩ := hw.broker_ok hs policy
  have hsome : ∃ i < b.pool.size, decide (provisioner i = .created) = true := by
    rw [hpool, Pool.size_ofTiers]
    simpa using hc
  have hall : ∀ events, ∃ trace,
      ((b.requestAll fun i => provisioner i = .created).progress events).trace? = some trace ∧
        Along (w.plan settings provisioner).Allows trace.toList := fun events => by
    rw [← Broker.plan_eq hw hd hpool]
    exact ((hcourse _).progress events).follows hsome hw hd
  refine ⟨⟨b, _, hb, ?_, hall⟩, fun events r hr => ?_⟩
  · have hstart := Broker.start_answering hi fun i => provisioner i = .created
    rwa [Provisioner.answering_eq hp] at hstart
  · obtain ⟨trace, ht, hlaw⟩ := hall events
    rw [simulate?_eq hb hi hp, Broker.runFor_eq] at hr
    cases hprog : (b.requestAll fun i => provisioner i = .created).progress events with
    | running c => rw [hprog] at hr; cases hr
    | ended result =>
      rw [hprog] at hr ht
      obtain rfl := Option.some.inj hr
      obtain rfl := Option.some.inj ht
      exact hlaw

/-- The first job ends on the second tick and is over by then: the third tick finds nothing to do. -/
theorem twoInARow_follows_plan : ∃ r,
    simulate? 20 .twoInARow .shortestFirst .oneWorker .always = some (.ok r) ∧ r.cycles = 3 ∧
      Along (Workflow.twoInARow.plan .oneWorker .always).Allows r.trace.toList := by
  have hends : (simulate? 20 .twoInARow .shortestFirst .oneWorker .always).bind
      (·.toOption.map (·.cycles)) = some 3 := by decide +kernel
  obtain ⟨result, hr, hcycles⟩ := Option.bind_eq_some_iff.mp hends
  cases result with
  | error e => cases hcycles
  | ok r =>
    exact ⟨r, hr, Option.some.inj hcycles, (every_cycle_follows_plan Workflow.twoInARow_validate
      Settings.oneWorker_validate .shortestFirst (fun _ hc => by cases hc)
      ⟨0, by decide, rfl⟩).2 20 r hr⟩

end Makespan
