import Makespan.Proofs.Broker.Prompt
import Makespan.Proofs.Simulation.Termination

/-! How many cycles a simulation takes. A chain of dependencies takes a cycle for each of its jobs
and one more to find that all is done; where no job takes longer than from one cycle to the next,
there is at most one cycle more than there are jobs. -/

namespace Makespan

namespace Workflow

/-- Jobs each of which is a declared parent of the next one, up to some job. -/
structure ChainTo (w : Workflow) (id : String) (chain : List String) : Prop where
  jobs : ∀ j ∈ chain, j ∈ w.ids
  linked : chain.IsChain fun p c => (p, c) ∈ w.pairs
  last : chain.getLast? = some id

namespace ChainTo

variable {w : Workflow} {id : String} {chain : List String} {scale : Binary64} {g : Graph}
  {n : Nat}

/-- A chain of jobs is a path of the graph. -/
theorem pathTo (h : w.ChainTo id chain) (hw : w.Valid) (hd : w.Describes scale g) :
    g.PathTo (g.keyFor id) (chain.map g.keyFor) := by
  refine ⟨(List.isChain_map _).mpr (h.linked.imp fun p c hpc => hd.parent_keyFor hw hpc), ?_⟩
  rw [List.getLast?_map, h.last]
  rfl

/-- What bounds the paths to a task bounds the chains to its job. -/
theorem length_lt (h : w.ChainTo id chain) (hw : w.Valid) (hd : w.Describes scale g)
    (hn : ∀ k < g.size, g.id k = id → g.DepthLt k n) : chain.length < n := by
  have hid : id ∈ w.ids := h.jobs id (List.mem_of_getLast? h.last)
  obtain ⟨hlt, hkey⟩ := hd.wellFormed.keyFor_id (hd.ids ▸ hid)
  have hlength := hn _ hlt hkey _ (h.pathTo hw hd)
  rwa [List.length_map] at hlength

end ChainTo

end Workflow

namespace Broker

variable {w : Workflow} {policy : Policy} {settings : Settings} {b : Broker}

/-- Nothing has been dispatched when the requests have been made. -/
theorem layered_requestAll (hb : w.broker policy settings = .ok b) (created : WorkerId → Bool) :
    (b.requestAll created).Layered [] := by
  refine .of_no_trace ((b.trace_requestAll _).trans (Workflow.trace_of_broker hb))
    (b.phase_requestAll _) ?_
  obtain ⟨g, -, s, -, rfl⟩ := Workflow.broker_eq_ok_iff.mp hb
  obtain ⟨events, he⟩ := exists_requestAll_eq (new w.label s settings.tiers settings.cycleDelay)
    created
  rw [he]
  rfl

/-- If no job takes any created worker longer than from one tick to the next, the broker gets on. -/
theorem prompt_of_le (hw : w.Valid) (hs : settings.Valid) (hb : w.broker policy settings = .ok b)
    (hd : w.Describes settings.lengthScale b.scheduler.graph) {provisioner : Provisioner}
    (hc : ∃ i < settings.workerCount, provisioner i = .created)
    (hle : ∀ j ∈ w.jobs, ∀ speed ∈ settings.createdSpeeds provisioner,
      (.ofNat (j.task settings.lengthScale).length / speed : Binary64).le settings.cycleDelay) :
    Prompt (fun i => provisioner i = .created) b := by
  obtain ⟨g, -, s, -, rfl⟩ := Workflow.broker_eq_ok_iff.mp hb
  refine ⟨exists_created rfl hc, fun v hv hcv k hk => ?_, fun c log h => h.not_stuck hw hd⟩
  have hduration := (new_paced hs w.label s).duration v
    ((new w.label s settings.tiers settings.cycleDelay).scheduler.graph.workLength k)
  obtain ⟨j, hj, speed, hspeed, htime⟩ :=
    hd.exists_executionTime_eq rfl hv (of_decide_eq_true hcv) hk
  refine (hduration.le_iff hs.delay_positive.nonNegative).mp ?_
  rw [htime]
  exact hle j hj speed hspeed

end Broker

/-- A job that ends a chain of so many jobs is dispatched after as many cycles at least, so that a
simulation that ends takes more cycles than there are jobs on any chain. If some worker was created,
and no job takes any created worker longer than the delay from one cycle to the next, then the
simulation does end, with at most one cycle more than there are jobs. -/
theorem cycles_between_depth_and_size {rawWorkflow w : Workflow}
    (hw : rawWorkflow.validate = .ok w) {rawSettings settings : Settings}
    (hs : rawSettings.validate = .ok settings) (policy : Policy) (provisioner : Provisioner) :
    (∀ events r, simulate? events w policy settings provisioner = some (.ok r) →
      (∀ before time id v after, r.trace.toList = before ++ .dispatch time id v :: after →
        ∀ chain, w.ChainTo id chain → chain.length ≤ before.countP (·.isCycle)) ∧
      ∀ id chain, w.ChainTo id chain → chain.length + 1 ≤ r.cycles) ∧
    ((∀ i < settings.workerCount, provisioner i ≠ .crashed) →
      (∃ i < settings.workerCount, provisioner i = .created) →
      (∀ j ∈ w.jobs, ∀ speed ∈ settings.createdSpeeds provisioner,
        (.ofNat (j.task settings.lengthScale).length / speed : Binary64).le settings.cycleDelay) →
      ∃ r, SimulatesTo w policy settings provisioner (.ok r) ∧ r.cycles ≤ w.jobs.length + 1) := by
  have hw := Workflow.validate_sound hw
  have hs := Settings.validate_sound hs
  obtain ⟨b, hb, hi, hpool, hd, hcourse⟩ := hw.broker_ok hs policy
  constructor
  · intro events r hr
    rcases Broker.start_cases hi hpool provisioner with ⟨hstart, -⟩ | hstart
    · rw [simulate?_of_failed_start hb events hstart] at hr
      cases hr
    · rw [simulate?_of_start hb events hstart, Broker.runFor_eq,
        Broker.Progress.result?_eq_some_iff] at hr
      have hstanding := (hcourse fun i => provisioner i = .created).standing (b.phase_requestAll _)
      obtain ⟨hdispatch, hcycles⟩ := hstanding.report_layered (.requestAll b _)
        (Broker.layered_requestAll hb _) hr
      refine ⟨fun before time id v after ht chain hchain => ?_, fun id chain hchain => ?_⟩
      · exact Nat.le_of_lt_succ (hchain.length_lt hw hd (hdispatch before _ after ht))
      · exact hchain.length_lt hw hd fun k hk _ => hcycles k hk
  · intro hp hc hle
    obtain ⟨d, hopened, hrun, hends⟩ := hw.opens hs hb hp hc
    obtain ⟨n, r, hn, hcycles⟩ := hrun.ends_of_prompt hopened
      (Broker.prompt_of_le hw hs hb hd hc hle)
    exact ⟨r, (hends _).mpr ⟨n, hn⟩, hd.size_eq ▸ hcycles⟩

/-- The first of two jobs in a row takes just as long as it is to the next cycle: so there is a
cycle for each of them and one more. -/
theorem twoInARow_takes_three_cycles :
    ∃ r, SimulatesTo .twoInARow .shortestFirst .oneWorker .always (.ok r) ∧ r.cycles = 3 := by
  obtain ⟨hdeep, hprompt⟩ := cycles_between_depth_and_size Workflow.twoInARow_validate
    Settings.oneWorker_validate .shortestFirst .always
  obtain ⟨r, ⟨events, hr⟩, hle⟩ := hprompt (fun _ _ hc => by cases hc) ⟨0, by decide, rfl⟩
    (by decide +kernel)
  have hchain : Workflow.twoInARow.ChainTo "b" ["a", "b"] :=
    ⟨by decide +kernel, List.isChain_pair.mpr (by decide +kernel), rfl⟩
  exact ⟨r, ⟨events, hr⟩, le_antisymm hle ((hdeep events r hr).2 "b" ["a", "b"] hchain)⟩

end Makespan
